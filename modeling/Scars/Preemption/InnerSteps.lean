import Scars.Preemption.Contexts
import Scars.Preemption.Continuations

/-! The inner steps of a method come first in the code of their context.
A method that interrupts may observe half done goes on with one step at a time, so the rest of
the code never holds an inner step.
-/

namespace Scars

open Memory

variable {memory memory' : Memory} {fuel : Nat} {now : Instant} {more rest : List Instr}
  {context : ExecutionContext} {instr : Instr}

/-- The steps of `wait_current_thread` and `schedule_interrupt_wakeup` behind the first. -/
def Locked.isInner : Locked → Bool
  | .raisePriority _ _ _ => true
  | .insertWaiter _ _ _ => true
  | .restorePriority _ _ => true
  | .blockWaiter _ => true
  | .readDeadline _ => true
  | .insertSleeper _ _ => true
  | _ => false

def Instr.isInner : Instr → Bool
  | .locked op => op.isInner
  | _ => false

/-- Only the next instruction may be an inner step. -/
def Headed (code : List Instr) : Prop := ∀ instr ∈ code.tail, instr.isInner = false

theorem isInner_of_neutral (neutral : instr.isNeutral = true) : instr.isInner = false := by
  cases instr <;> first | rfl | cases neutral

theorem isInner_section (body : Section) : ∀ next ∈ body.code, next.isInner = false := by
  have none : body.code.all (fun next => !next.isInner) = true := by
    cases body with
    | op method => cases method <;> rfl
    | waitCurrentThreadEvent events deadline => rfl
    | closure mayBlock => rfl
  simpa using none

theorem isInner_notifyCode (popped : Option Suspendable)
    : (notifyCode popped).all (fun next => !next.isInner) = true := by
  rcases popped with _ | thread | handler <;> rfl

theorem Instr.perform_outer (hp : instr.perform fuel now context memory = .ok (memory', more))
    (outer : ∀ op, instr ≠ .locked op)
    : ∀ next ∈ more, next.isInner = false := by
  cases Instr.perform_continues hp with
  | acquired body restoreState =>
      exact List.forall_mem_append.mpr
        ⟨isInner_section body, List.forall_mem_singleton.mpr rfl⟩
  | notified popped => simpa using isInner_notifyCode popped
  | notifiesNext popped =>
      exact List.forall_mem_append.mpr
        ⟨by simpa using isInner_notifyCode popped, List.forall_mem_singleton.mpr rfl⟩
  | nothing => simp
  | completes => simp [Instr.isInner]
  | drained => simp [Instr.isInner, Locked.isInner]
  | pollsNext => simp [Instr.isInner]
  | tried => simp [waitEventsCode, Instr.isInner]
  | pollsAgain => simp [interruptExit, Instr.isInner]
  | _ => first | exact List.forall_mem_singleton.mpr rfl | exact absurd rfl (outer _)

/-- A step inside a section goes on with one inner step, and at most the end of
`suspend_suspendable_now` behind it.
-/
theorem Instr.perform_tail (hp : instr.perform fuel now context memory = .ok (memory', more))
    : ∀ next ∈ more.tail, next.isInner = false := by
  by_cases inside : ∃ op, instr = .locked op
  · obtain ⟨op, rfl⟩ := inside
    cases Instr.perform_continues hp with
    | rescheduled => exact List.forall_mem_singleton.mpr rfl
    | _ => simp
  · exact fun next hm =>
      Instr.perform_outer hp (not_exists.mp inside) next (List.mem_of_mem_tail hm)

theorem headed_append {more rest : List Instr} (tail : ∀ next ∈ more.tail, next.isInner = false)
    (later : ∀ next ∈ rest, next.isInner = false)
    : Headed (more ++ rest) := by
  cases more with
  | nil => exact fun next hm => later next (List.mem_of_mem_tail hm)
  | cons first more => exact List.forall_mem_append.mpr ⟨tail, later⟩

theorem headed_of_none {code : List Instr} (none : ∀ next ∈ code, next.isInner = false)
    : Headed code :=
  fun next hm => none next (List.mem_of_mem_tail hm)

theorem isInner_body {body : List Instr}
    (entered : body = [.user] ∨ ∃ call : Syscall, body = call.code)
    : ∀ next ∈ body, next.isInner = false := by
  rcases entered with rfl | ⟨call, rfl⟩
  · exact List.forall_mem_singleton.mpr rfl
  · exact fun next hm => isInner_of_neutral (Machine.isNeutral_syscall call next hm)

theorem isInner_exit {exit : List Instr} (ends : exit = interruptExit ∨ exit = [])
    : ∀ next ∈ exit, next.isInner = false := by
  rcases ends with rfl | rfl
  · simp only [interruptExit, List.forall_mem_cons]
    exact ⟨rfl, rfl, rfl, List.forall_mem_nil _⟩
  · simp

theorem keptByCode_headed : Machine.KeptByCode Headed where
  perform hp before := headed_append (Instr.perform_tail hp) before
  call call rest before := by
    refine headed_of_none (List.forall_mem_append.mpr ⟨fun next hm => ?_, ?_⟩)
    · exact isInner_of_neutral (Machine.neutral_call call next hm).1
    · exact List.forall_mem_cons.mpr ⟨rfl, before⟩
  finish before := headed_of_none before
  enter entered exit ends :=
    headed_of_none (List.forall_mem_append.mpr ⟨isInner_body entered, isInner_exit ends⟩)

end Scars
