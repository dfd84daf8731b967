import Scars.Kernel.Effects
import Scars.Preemption.Machine

/-! The shape of code: sections of the preemption lock nest, and so do borrows inside them.
Which instructions a context may have left depends on its level: a thread, the lowest interrupt
context, or one that is nested on top of it.
-/

namespace Scars

namespace Instr

/-- The instructions that end a section: `release` in general, and `unlock` once the release
of the outermost section is under way.
-/
def endsSection : Instr → Bool
  | .release _ => true
  | .unlock _ => true
  | _ => false

/-- The instructions at the end of the lowest interrupt context, and what they poll. -/
def isExit : Instr → Bool
  | .pollExecutor _ => true
  | .pollPending => true
  | .swapPending => true
  | .checkPolls => true
  | _ => false

end Instr

/-- How many sections the code is inside of. -/
def sectionDepth (code : List Instr) : Nat := code.countP Instr.endsSection

/-- The code ends the sections and the borrow it is inside of, innermost first. The outermost
section is the one that found the lock free. The end of an interrupt is outside of all sections.
-/
def Balanced (depth : Nat) (borrowed : Bool) : List Instr → Prop
  | [] => depth = 0 ∧ borrowed = false
  | instr :: rest =>
      match instr with
      | .borrowMut => 0 < depth ∧ borrowed = false ∧ Balanced depth true rest
      | .dropBorrow => 0 < depth ∧ borrowed = true ∧ Balanced depth false rest
      | .locked _ => 0 < depth ∧ Balanced depth borrowed rest
      | .drain _ => 0 < depth ∧ borrowed = true ∧ Balanced depth true rest
      | .release restoreState =>
          0 < depth ∧ borrowed = false ∧ (restoreState.previous = none ↔ depth = 1)
          ∧ Balanced (depth - 1) false rest
      | .unlock _ => depth = 1 ∧ borrowed = false ∧ Balanced 0 false rest
      | other => (other.isExit = true → depth = 0) ∧ borrowed = false ∧ Balanced depth false rest

/-- The instructions that neither start nor end a section or a borrow. -/
def Instr.isNeutral : Instr → Bool
  | .borrowMut => false
  | .dropBorrow => false
  | .locked _ => false
  | .drain _ => false
  | .release _ => false
  | .unlock _ => false
  | _ => true

variable {depth : Nat} {borrowed : Bool} {instr : Instr} {more rest : List Instr}
  {code : List Instr}

theorem balanced_neutral (neutral : instr.isNeutral = true)
    : Balanced depth borrowed (instr :: rest)
      ↔ (instr.isExit = true → depth = 0) ∧ borrowed = false ∧ Balanced depth false rest := by
  cases instr <;> first | rfl | cases neutral

theorem sectionDepth_cons
    : sectionDepth (instr :: rest) = sectionDepth rest + if instr.endsSection then 1 else 0 :=
  List.countP_cons

theorem Balanced.sectionDepth_eq (balanced : Balanced depth borrowed code)
    : sectionDepth code = depth := by
  induction code generalizing depth borrowed with
  | nil => exact balanced.1.symm
  | cons instr rest ih =>
      rw [sectionDepth_cons]
      cases instr with
      | locked op => exact ih balanced.2
      | release restoreState =>
          have inner := ih balanced.2.2.2
          have positive := balanced.1
          simp only [Instr.endsSection, if_true]
          omega
      | unlock isInterrupt =>
          have outside := ih balanced.2.2
          simp only [Instr.endsSection, if_true, outside, balanced.1]
      | _ => exact ih balanced.2.2

theorem Balanced.neutral (balanced : Balanced 0 borrowed code)
    : ∀ instr ∈ code, instr.isNeutral = true := by
  induction code generalizing borrowed with
  | nil => simp
  | cons instr rest ih =>
      have neutral : instr.isNeutral = true := by
        cases instr with
        | borrowMut => exact absurd balanced.1 (Nat.lt_irrefl 0)
        | dropBorrow => exact absurd balanced.1 (Nat.lt_irrefl 0)
        | locked op => exact absurd balanced.1 (Nat.lt_irrefl 0)
        | drain queue => exact absurd balanced.1 (Nat.lt_irrefl 0)
        | release restoreState => exact absurd balanced.1 (Nat.lt_irrefl 0)
        | unlock isInterrupt => cases balanced.1
        | _ => rfl
      exact List.forall_mem_cons.mpr ⟨neutral, ih ((balanced_neutral neutral).mp balanced).2.2⟩

theorem Balanced.append (balanced : Balanced depth false rest)
    (neutral : ∀ instr ∈ more, instr.isNeutral = true ∧ (instr.isExit = true → depth = 0))
    : Balanced depth false (more ++ rest) := by
  induction more with
  | nil => exact balanced
  | cons instr more ih =>
      obtain ⟨isNeutral, exits⟩ := neutral instr (by simp)
      refine (balanced_neutral isNeutral).mpr ⟨exits, rfl, ih fun other hm => ?_⟩
      exact neutral other (by simp [hm])

theorem Balanced.append_locked (balanced : Balanced depth borrowed rest) (inside : 0 < depth)
    (steps : ∀ instr ∈ more, ∃ op, instr = .locked op)
    : Balanced depth borrowed (more ++ rest) := by
  induction more with
  | nil => exact balanced
  | cons instr more ih =>
      obtain ⟨op, rfl⟩ := steps instr (by simp)
      exact ⟨inside, ih fun other hm => steps other (by simp [hm])⟩

theorem Balanced.append_section (balanced : Balanced depth false rest) {body : Section}
    {restoreState : RestoreState} (outermost : restoreState.previous = none ↔ depth = 0)
    : Balanced (depth + 1) false (body.code ++ [.release restoreState] ++ rest) := by
  have released : Balanced (depth + 1) false (.release restoreState :: rest) := by
    refine ⟨by omega, rfl, ?_, balanced⟩
    rw [outermost]
    omega
  have positive : 0 < depth + 1 := by omega
  rw [List.append_assoc, List.singleton_append]
  cases body with
  | op method =>
      cases method with
      | acquireScopedLock lock => exact ⟨positive, released⟩
      | _ => exact ⟨positive, rfl, positive, positive, rfl, released⟩
  | waitCurrentThreadEvent events deadline =>
      exact ⟨positive, rfl, positive, positive, positive, positive, rfl, released⟩
  | closure mayBlock => exact ⟨nofun, rfl, released⟩

/-- The methods that may switch to another thread. -/
def SectionOp.switches : SectionOp → Bool
  | .reschedule _ => true
  | .delayThreadUntil _ => true
  | .suspendThread _ => true
  | .waitCurrentThread _ _ => true
  | _ => false

def Section.switches : Section → Bool
  | .op method => method.switches
  | .waitCurrentThreadEvent _ _ => true
  | .closure _ => false

def Locked.switches : Locked → Bool
  | .run op => op.switches
  | .blockUnlessReceived _ _ => true
  | _ => false

def Access.isThreads : Access → Bool
  | .tryWaitEvents _ => true
  | _ => false

namespace Instr

def switches : Instr → Bool
  | .tryWith body => body.switches
  | .locked op => op.switches
  | _ => false

/-- The instructions of threads alone: those that enter the system call handler, and those
that lead to them.
-/
def isThreads : Instr → Bool
  | .access operation => operation.isThreads
  | .release restoreState => !restoreState.isInterrupt
  | .unlock isInterrupt => !isInterrupt
  | .checkPending => true
  | .yieldPending => true
  | .syscall _ => true
  | _ => false

/-- The ends of sections of interrupt contexts, which do not look for a pending reschedule. -/
def isInterrupts : Instr → Bool
  | .release restoreState => restoreState.isInterrupt
  | .unlock isInterrupt => isInterrupt
  | _ => false

end Instr

/-- Where a context is: a thread, the lowest interrupt context, or one above it. -/
inductive Level where
  | thread
  | lowest
  | nested
  deriving DecidableEq, Repr

def Level.isInterrupt : Level → Bool
  | .thread => false
  | _ => true

/-- The instructions a context may have left. -/
def Instr.isAt : Level → Instr → Bool
  | .thread, instr => !instr.switches && !instr.isExit && !instr.isInterrupts
  | .lowest, instr => !instr.isThreads
  | .nested, instr => !instr.isThreads && !instr.switches && !instr.isExit

end Scars
