import Scars.Kernel.MutualExclusion
import Scars.Kernel.ThresholdRuns

/-! Which acquisitions check the ceiling.
Scoped locks are checked in threads and in handlers; a `CeilingLock::with` section is not. Where
only contexts of lower base priority enter sections, the base priority of a context is at or below
each section it is inside of.
-/

namespace Scars

open Runs OrderedInsert Locking

/-- The ways to acquire a ceiling lock: a scoped lock, or a section of `CeilingLock`. -/
inductive Acquisition where
  | scopedLock (lock : LockId)
  | nestingLock (ceiling : Priority)
  deriving DecidableEq, Repr

namespace Locking

variable {locking locking' : Locking} {fuel : Nat} {context : ExecutionContext} {event : Event}
  {handler : HandlerId}

def acquiredCeiling (locking : Locking) : Acquisition → Priority
  | .scopedLock lock => locking.ceilingOf lock
  | .nestingLock ceiling => ceiling

/-- `acquire_scoped_lock` and `acquire_nesting_lock` of a context. -/
def acquire : ExecutionContext → Acquisition → Event
  | .thread _, .scopedLock lock => .kernel (.lock lock)
  | .thread _, .nestingLock ceiling => .kernel (.enterSection ceiling)
  | .interrupt handler, .scopedLock lock => .handler handler (.lock lock)
  | .interrupt handler, .nestingLock ceiling => .handler handler (.enter ceiling)

/-- The acquisitions that reach a ceiling check. A thread is first checked for being the idle
thread or the owner already.
-/
def IsChecked (locking : Locking) : ExecutionContext → Acquisition → Prop
  | .thread thread, .scopedLock lock =>
      thread ≠ IDLE_THREAD_ID ∧ (locking.lock lock).owner ≠ some thread
  | .interrupt _, .scopedLock _ => True
  | _, .nestingLock _ => False

/-- Above the ceiling, exactly the checked acquisitions raise the violation. -/
theorem acquire_violation_iff {acquisition : Acquisition} (executes : locking.Executes context)
    (above : locking.acquiredCeiling acquisition < locking.priority context)
    : locking.perform fuel (acquire context acquisition) = .error .ceilingPriorityViolation
      ↔ locking.IsChecked context acquisition := by
  cases context with
  | thread thread =>
    have current : thread = locking.currentThread := executes
    subst current
    cases acquisition with
    | scopedLock lock =>
        have exceeds
            : (locking.lock lock).ceilingPriority
              < locking.toKernel.priority locking.currentThread :=
          above
        by_cases idle : locking.currentThread = IDLE_THREAD_ID
        · simp [acquire, IsChecked, perform, performInKernel, Kernel.perform,
            Kernel.lockScoped, idle, bind, Except.bind]
        · by_cases mine : (locking.lock lock).owner = some locking.currentThread
          · simp [acquire, IsChecked, perform, performInKernel, Kernel.perform,
              Kernel.lockScoped, idle, mine, bind, Except.bind]
          · simp [acquire, IsChecked, perform, performInKernel, Kernel.perform,
              Kernel.lockScoped, idle, mine, exceeds, bind, Except.bind]
    | nestingLock ceiling =>
        simp [acquire, IsChecked, perform, performInKernel, Kernel.perform, takesLinked,
          bind, Except.bind, pure, Except.pure]
  | interrupt handler =>
    cases acquisition with
    | scopedLock lock =>
        have exceeds : locking.ceilingOf lock < locking.handlerPriority handler := above
        simp [acquire, IsChecked, perform, performInInterrupt,
          acquireScopedLockInInterrupt, exceeds]
    | nestingLock ceiling => simp [acquire, IsChecked, perform, performInInterrupt]

/-- The context is inside a section of this ceiling. -/
def Inside (locking : Locking) (context : ExecutionContext) (ceiling : Priority) : Prop :=
  ∃ opened ∈ (locking.account context).sections, opened.ceiling = ceiling

/-- The base priorities of all contexts are at or below the ceilings of their sections. -/
def EnteredBelow (locking : Locking) : Prop :=
  ∀ context ceiling,
    locking.Inside context ceiling → (locking.account context).base.rank ≤ ceiling.rank

/-- The active priority is at least the base priority and every ceiling that is open. -/
theorem Sound.bounds (sound : locking.Sound) (context : ExecutionContext)
    : (locking.account context).base.rank ≤ (locking.priority context).rank
      ∧ ∀ ceiling,
          locking.Inside context ceiling → ceiling.rank ≤ (locking.priority context).rank := by
  rw [sound.priority_eq context]
  obtain ⟨base, ceilings⟩ := Priority.rank_highest_le.mp (Nat.le_refl _)
  refine ⟨base, ?_⟩
  rintro ceiling ⟨opened, hm, rfl⟩
  exact ceilings _ (List.mem_append_right _ (List.mem_map_of_mem hm))

/-- An event enters no section with a ceiling below the base priority. -/
def EntersBelow (locking : Locking) (event : Event) : Prop :=
  ∀ context ceiling,
    locking.lockOp event context = some (.enter ceiling)
    → (locking.account context).base.rank ≤ ceiling.rank

/-- Events that enter no section below their base priority keep all sections above it. -/
theorem EnteredBelow.perform (below : locking.EnteredBelow) (sound : locking.Sound)
    (enters : locking.EntersBelow event) (hp : locking.perform fuel event = .ok locking')
    : locking'.EnteredBelow := by
  rintro context ceiling ⟨opened, hm, rfl⟩
  have follows := sound.follows hp context
  have before (still : opened ∈ (locking.account context).sections)
      : (locking.account context).base.rank ≤ opened.ceiling.rank :=
    below context _ ⟨opened, still, rfl⟩
  cases own : locking.lockOp event context with
  | none =>
      rw [own] at follows
      rw [show locking'.account context = locking.account context from follows] at hm ⊢
      exact before hm
  | some op =>
      rw [own] at follows
      rw [follows.2] at hm ⊢
      rw [LockAccount.after_base]
      cases op with
      | lock lock => exact before hm
      | unlock lock => exact before hm
      | enter entered =>
          rcases List.mem_cons.mp hm with rfl | still
          · exact enters context _ own
          · exact before still
      | leave =>
          refine before ?_
          cases sections : (locking.account context).sections with
          | nil => exact absurd sections follows.1
          | cons innermost rest =>
              simp only [LockAccount.after, sections] at hm
              exact List.mem_cons_of_mem _ hm

/-- The invariants of the locks in runs in which threads give way above the locks and no section
is entered above its ceiling.
-/
structure Guarded (locking : Locking) : Prop where
  sound : locking.Sound
  kernel : locking.toKernel.Sound
  separated : locking.toKernel.Separated
  below : locking.EnteredBelow

/-- Nobody holds anything at first. -/
theorem start_guarded (program : Program) : (start program).Guarded where
  sound := start_sound program
  kernel := Kernel.start_sound program
  separated := Kernel.start_separated program
  below := by
    rintro context ceiling ⟨opened, hm, -⟩
    cases context <;> cases hm

/-- The calls that keep the invariants. -/
def Respects (locking : Locking) (event : Event) : Prop :=
  locking.EntersBelow event
  ∧ ∀ op, event = .kernel op → locking.toKernel.respectsLocks op = true

/-- The locks of a handler are its own record, its priorities and the threshold. -/
theorem adjusts_performInInterrupt {op : LockOp}
    (hp : locking.performInInterrupt handler op = .ok locking')
    : locking.toKernel.Adjusts locking'.toKernel := by
  have stored (priorities : PriorityStatus × PriorityStatus) (ceiling : PriorityStatus)
      : locking.toKernel.Adjusts
          ({ locking.toKernel with
            handler := Function.update locking.handler handler
              { locking.handler handler with lockPriorities := priorities } }.setCeilingThreshold
            ceiling) :=
    Kernel.Adjusts.trans ⟨_, _, _, _, _, rfl⟩ (Kernel.adjusts_setCeilingThreshold _)
  cases op with
  | lock lock =>
      obtain ⟨-, -, rfl⟩ := acquireScopedLockInInterrupt_ok hp
      exact stored _ _
  | unlock lock =>
      obtain ⟨-, rfl⟩ := releaseLock_ok hp
      exact stored _ _
  | enter ceiling =>
      cases hp
      exact Kernel.adjusts_setHandlerPriorities handler _
  | leave =>
      obtain ⟨innermost, rest, -, rfl⟩ := leaveSectionInInterrupt_ok hp
      exact Kernel.adjusts_setHandlerPriorities handler _

/-- Events within the rules keep the invariants of the locks. -/
theorem Guarded.perform (guarded : locking.Guarded) (respects : locking.Respects event)
    (hp : locking.perform fuel event = .ok locking')
    : locking'.Guarded := by
  have sound := guarded.sound.perform hp
  have below := guarded.below.perform guarded.sound respects.1 hp
  cases event with
  | kernel op =>
      obtain ⟨kernel, operated, -, rfl⟩ := performInKernel_ok hp
      exact ⟨sound, guarded.kernel.perform operated,
        guarded.separated.perform guarded.kernel (respects.2 op rfl) operated, below⟩
  | handler handler op =>
      have rewrites := (guarded.sound.performInInterrupt hp).2
      have he := (adjusts_performInInterrupt hp).sameLists
      have scheduling : locking.toKernel.Scheduling locking'.toKernel :=
        .of_sublist rewrites.thread rewrites.lock (by rw [he.ready]) (by rw [he.blocked])
      refine ⟨sound, guarded.kernel.scheduling scheduling (guarded.kernel.consistent.congr he),
        guarded.separated.scheduling scheduling he.leaves (Or.inl he.current), below⟩

/-- The pending polls are no part of the invariants. -/
theorem Guarded.takePoll (guarded : locking.Guarded)
    (taken : locking.takePoll fuel handler = .ok locking')
    : locking'.Guarded
      ∧ ∃ polls, locking' = { locking with toKernel := { locking.toKernel with polls } } := by
  obtain ⟨sound, polls, rfl⟩ := guarded.sound.takePoll taken
  have he : locking.toKernel.SameLists { locking.toKernel with polls } := by
    constructor <;> rfl
  have scheduling : locking.toKernel.Scheduling { locking.toKernel with polls } :=
    .of_eq rfl
  exact ⟨⟨sound, guarded.kernel.scheduling scheduling (guarded.kernel.consistent.congr he),
    guarded.separated.scheduling scheduling he.leaves (.inl rfl), guarded.below⟩, polls, rfl⟩

/-- The base priorities never change. -/
theorem Sound.base_perform (sound : locking.Sound)
    (hp : locking.perform fuel event = .ok locking') (context : ExecutionContext)
    : (locking'.account context).base = (locking.account context).base := by
  have follows := sound.follows hp context
  cases own : locking.lockOp event context with
  | none =>
      rw [own] at follows
      rw [show locking'.account context = locking.account context from follows]
  | some op =>
      rw [own] at follows
      rw [follows.2, LockAccount.after_base]

/-- An event without a lock operation of a context leaves its active priority. -/
theorem Sound.priority_perform (sound : locking.Sound)
    (hp : locking.perform fuel event = .ok locking') (other : locking.lockOp event context = none)
    : locking'.priority context = locking.priority context := by
  have follows := sound.follows hp context
  rw [other] at follows
  rw [priority_account, priority_account,
    show locking'.account context = locking.account context from follows]

end Locking

end Scars
