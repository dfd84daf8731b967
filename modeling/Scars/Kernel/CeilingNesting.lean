import Scars.Kernel.Nesting
import Scars.Kernel.CeilingChecks

/-! Sections of nested contexts.
Where handlers and polls begin only above the active priority of what runs, sections are entered
only by contexts with a base priority at or below the ceiling, and threads give way above the
locks, no context is inside a section of a ceiling while one it preempted is inside another.
-/

namespace Scars.Nesting

open Runs OrderedInsert Kernel

variable {nesting nesting' : Nesting} {fuel : Nat} {context : ExecutionContext}
  {top : ActiveHandler} {rest : List ActiveHandler} {handler : HandlerId} {locking : Locking}
  {op : Op}

/-- The ceiling of the section that an event enters. -/
def enteredCeiling : Event → Option Priority
  | .thread (.enterSection ceiling) => some ceiling
  | .handler (.enter ceiling) => some ceiling
  | _ => none

/-- The handler that an event puts on top of what runs. -/
def begunHandler : Event → Option HandlerId
  | .interrupt handler => some handler
  | .pollSyscall handler => some handler
  | .drain handler => some handler
  | _ => none

/-- The operation of the kernel that an event executes. -/
def executed : Event → Option Op
  | .thread op => some op
  | .request op => some op
  | .reschedule now => some (.executePendingReschedule now)
  | _ => none

/-- A section is entered by a context with a base priority at or below its ceiling, a handler or a
poll begins above the active priority of what runs, and threads give way above the locks.
-/
def respectsCeilings (nesting : Nesting) (event : Event) : Bool :=
  (enteredCeiling event).all (fun ceiling =>
    decide ((nesting.account nesting.running).base.rank ≤ ceiling.rank))
  && (begunHandler event).all (fun handler =>
    decide (nesting.priority nesting.running < (nesting.handler handler).basePriority))
  && (executed event).all nesting.toKernel.respectsLocks

/-- Each context on the stack has a base priority above the active priorities below it. -/
def Stacked (nesting : Nesting) : Prop :=
  nesting.stack.Pairwise fun upper lower =>
    (nesting.priority lower).rank < (nesting.account upper).base.rank

/-- The contexts that the running one, or one below it on the stack, came before: the handlers
and the thread below, and the threads that the current thread keeps from running.
-/
def Preempted (nesting : Nesting) : ExecutionContext → Prop
  | .interrupt handler => handler ∈ nesting.active.tail.map ActiveHandler.handler
  | .thread thread =>
      (thread = nesting.currentThread ∧ nesting.active ≠ [])
      ∨ (thread ≠ nesting.currentThread ∧ nesting.currentThread ≠ IDLE_THREAD_ID)

/-- The running context is on top of the stack. -/
theorem stack_eq (nesting : Nesting) : nesting.stack = nesting.running :: nesting.stack.tail := by
  unfold stack running
  cases nesting.active <;> rfl

section

variable (stacked : nesting.Stacked)
include stacked

/-- Whatever is below the running context has a lower active priority than its base. -/
theorem Stacked.priority_lt (below : context ∈ nesting.stack.tail)
    : (nesting.priority context).rank < (nesting.account nesting.running).base.rank := by
  unfold Stacked at stacked
  rw [stack_eq] at stacked
  exact (List.pairwise_cons.mp stacked).1 context below

/-- A handler above what runs is above the whole stack. -/
theorem Stacked.push (sound : nesting.toLocking.Sound)
    (above : nesting.priority nesting.running < (nesting.handler top.handler).basePriority)
    : Stacked { nesting with active := top :: nesting.active } := by
  refine List.pairwise_cons.mpr ⟨fun lower hm => ?_, stacked⟩
  have fires : (nesting.priority nesting.running).rank
      < (nesting.account (.interrupt top.handler)).base.rank := Priority.lt_iff.mp above
  have hm : lower ∈ nesting.stack := hm
  rw [stack_eq] at hm
  rcases List.mem_cons.mp hm with rfl | below
  · exact fires
  · have lower := stacked.priority_lt below
    have active := (sound.bounds nesting.running).1
    exact Nat.lt_of_lt_of_le lower (Nat.le_trans active (Nat.le_of_lt fires))

/-- What the contexts below the running one do not take part in keeps the stack as it is. -/
theorem Stacked.perform (sound : nesting.toLocking.Sound) {event : Locking.Event}
    (hp : nesting.toLocking.perform fuel event = .ok locking)
    (he : locking.currentThread = nesting.currentThread)
    (others : ∀ lower ∈ nesting.stack.tail, nesting.toLocking.lockOp event lower = none)
    : Stacked { nesting with toLocking := locking } := by
  have stack : stack { nesting with toLocking := locking } = nesting.stack := by
    unfold Nesting.stack
    simp only [he]
  unfold Stacked at stacked ⊢
  rw [stack]
  rw [stack_eq] at stacked ⊢
  have bases (context : ExecutionContext)
      : (locking.account context).base = (nesting.account context).base :=
    sound.base_perform hp context
  have kept {lower : ExecutionContext} (below : lower ∈ nesting.stack.tail)
      : locking.priority lower = nesting.priority lower :=
    sound.priority_perform hp (others lower below)
  obtain ⟨top, rest⟩ := List.pairwise_cons.mp stacked
  refine List.pairwise_cons.mpr ⟨fun lower below => ?_, rest.imp_of_mem ?_⟩
  · dsimp only
    rw [kept below, bases]
    exact top lower below
  · intro upper lower _ below above
    dsimp only
    rw [kept below, bases]
    exact above

/-- The running context is on the stack once. -/
theorem Stacked.running_not_below (sound : nesting.toLocking.Sound)
    : nesting.running ∉ nesting.stack.tail := by
  intro below
  have above := stacked.priority_lt below
  have active := (sound.bounds nesting.running).1
  omega

end

/-- The locks are guarded, and the stack is in order. -/
structure Guarded (nesting : Nesting) : Prop where
  locks : nesting.toLocking.Guarded
  stacked : nesting.Stacked

/-- Only the idle thread is on the stack at first. -/
theorem start_guarded (program : Program) : (Nesting.start program).Guarded where
  locks := Locking.start_guarded program
  stacked := List.pairwise_singleton _ _

/-- What the condition says of an operation of the current thread. -/
theorem respects_thread (none : nesting.active = [])
    (respects : nesting.respectsCeilings (.thread op) = true)
    : nesting.toLocking.Respects (.kernel op) := by
  have running : nesting.running = .thread nesting.currentThread := by
    unfold Nesting.running
    rw [none]
  simp only [respectsCeilings, executed, Option.all_some, Bool.and_eq_true] at respects
  refine ⟨fun context ceiling own => ?_, fun _ he => by cases he; exact respects.2⟩
  cases context with
  | interrupt handler => cases own
  | thread thread =>
      unfold Locking.lockOp at own
      dsimp only at own
      split at own
      next isCurrent =>
        subst isCurrent
        rw [← running]
        cases op with
        | enterSection entered =>
            cases own
            simpa [enteredCeiling, begunHandler] using respects.1
        | _ => cases own
      · cases own

/-- What the condition says of a handler or poll that begins. -/
theorem respects_begun {event : Event} (begins : begunHandler event = some handler)
    (respects : nesting.respectsCeilings event = true)
    : nesting.priority nesting.running < (nesting.handler handler).basePriority := by
  simp only [respectsCeilings, begins, Option.all_some, Bool.and_eq_true] at respects
  exact of_decide_eq_true respects.1.2

/-- What the condition says of an operation of the scheduler. -/
theorem respects_scheduling (scheduling : Locking.threadLockOp op = none)
    (respects : nesting.toKernel.respectsLocks op = true)
    : nesting.toLocking.Respects (.kernel op) := by
  refine ⟨fun context ceiling own => ?_, fun _ he => by cases he; exact respects⟩
  cases context with
  | interrupt handler => cases own
  | thread thread => simp [Locking.lockOp, scheduling] at own

/-- A request of a handler is no lock operation, and the current thread stays. -/
theorem request_current {kernel kernel' : Kernel} (requests : isRequest op = true)
    (hp : kernel.perform fuel op = .ok kernel')
    : Locking.threadLockOp op = none ∧ kernel'.currentThread = kernel.currentThread := by
  cases op with
  | resume thread => exact ⟨rfl, resumeThread_current hp⟩
  | wakeupScheduler => cases hp; exact ⟨rfl, rfl⟩
  | notifyNext queue =>
      obtain ⟨waitQueue, waitOwner, rfl | ⟨thread, resumed⟩⟩ := notifyNext_ok hp
      · exact ⟨rfl, rfl⟩
      · have kept := resumeThread_current resumed
        exact ⟨rfl, kept⟩
  | sendEvents thread events =>
      obtain ⟨stored, rfl | resumed⟩ := sendEvents_ok hp
      · exact ⟨rfl, rfl⟩
      · have kept := resumeThread_current resumed
        exact ⟨rfl, kept⟩
  | scheduleInterruptWakeup handler wakeupTime =>
      obtain ⟨-, alarm, rfl⟩ := scheduleInterruptWakeup_ok hp
      exact ⟨rfl, rfl⟩
  | resumeInterrupt handler =>
      obtain ⟨polls, rfl⟩ := resumeInterrupt_ok hp
      exact ⟨rfl, rfl⟩
  | _ => cases requests

section

variable (guarded : nesting.Guarded)
include guarded

/-- A lock operation of the running handler. -/
theorem Guarded.operate (active : nesting.active = top :: rest) {op : LockOp}
    (enters : ∀ ceiling, op = .enter ceiling
      → (nesting.account (.interrupt top.handler)).base.rank ≤ ceiling.rank)
    (hp : nesting.performInInterrupt top.handler op = .ok locking)
    : Guarded { nesting with toLocking := locking } := by
  have whole : nesting.toLocking.perform 0 (.handler top.handler op) = .ok locking := hp
  have respects : nesting.toLocking.Respects (.handler top.handler op) := by
    refine ⟨fun context ceiling own => ?_, fun _ he => by cases he⟩
    cases context with
    | thread thread => cases own
    | interrupt other =>
        unfold Locking.lockOp at own
        dsimp only at own
        split at own
        next he =>
          subst he
          exact enters ceiling (Option.some.inj own)
        · cases own
  refine ⟨guarded.locks.perform respects whole, ?_⟩
  have rewrites := (guarded.locks.sound.performInInterrupt hp).2
  refine guarded.stacked.perform guarded.locks.sound whole rewrites.current ?_
  intro lower below
  cases lower with
  | thread thread => rfl
  | interrupt other =>
      refine if_neg ?_
      rintro rfl
      apply guarded.stacked.running_not_below guarded.locks.sound
      unfold running
      rw [active]
      exact below

/-- The innermost context leaves the stack. -/
theorem Guarded.pop (active : nesting.active = top :: rest) (draining : Bool)
    : Guarded { nesting with active := rest, draining := draining } := by
  refine ⟨guarded.locks, ?_⟩
  have stacked := guarded.stacked
  unfold Stacked stack at stacked
  rw [active] at stacked
  exact (List.pairwise_cons.mp stacked).2

/-- A poll begins above what runs, and raises its own priority to the base. -/
theorem Guarded.beginPoll
    (above : nesting.priority nesting.running < (nesting.handler handler).basePriority)
    (draining : Bool)
    : Guarded { nesting.beginPoll handler with draining := draining } := by
  let entry : ActiveHandler := ⟨handler, ((nesting.enterSectionInInterrupt handler
    (nesting.handler handler).basePriority).openSections handler), true⟩
  have pushed : Guarded { nesting with active := entry :: nesting.active, draining := draining } :=
    ⟨guarded.locks, guarded.stacked.push guarded.locks.sound above⟩
  have raised
      : nesting.performInInterrupt handler (.enter (nesting.handler handler).basePriority)
        = .ok (nesting.beginPoll handler).toLocking := rfl
  refine pushed.operate rfl (fun ceiling he => ?_) raised
  cases he
  exact Nat.le_refl _

/-- The innermost context returns. -/
theorem Guarded.endContext (active : nesting.active = top :: rest)
    (ended : nesting.endContext top rest = .ok nesting')
    : nesting'.Guarded := by
  obtain ⟨-, returned⟩ := checked_ok.mp ended
  dsimp only at returned
  split at returned
  next =>
    obtain ⟨locking, left, rfl⟩ := within_ok returned
    have restores : nesting.performInInterrupt top.handler .leave = .ok locking := left
    exact (guarded.operate active (fun _ he => by cases he) restores).pop active _
  next =>
    cases returned
    exact guarded.pop active _

/-- Every step within the rules keeps the locks guarded and the stack in order. -/
theorem Guarded.step {event : Event} (respects : nesting.respectsCeilings event = true)
    (hs : nesting.step fuel event = .ok nesting')
    : nesting'.Guarded := by
  have alone {other : Nesting} (none : other.active = []) : other.Stacked := by
    unfold Stacked stack
    rw [none]
    exact List.pairwise_singleton _ _
  cases event with
  | thread op =>
      obtain ⟨⟨none, -⟩, returned⟩ := checked_ok.mp hs
      obtain ⟨locking, hp, rfl⟩ := within_ok returned
      exact ⟨guarded.locks.perform (respects_thread none respects) hp, alone none⟩
  | interrupt handler =>
      cases hs
      exact ⟨guarded.locks, guarded.stacked.push guarded.locks.sound (respects_begun rfl respects)⟩
  | pollSyscall handler =>
      obtain ⟨-, returned⟩ := checked_ok.mp hs
      cases returned
      exact guarded.beginPoll (respects_begun rfl respects) true
  | drain handler =>
      obtain ⟨⟨none, -⟩, returned⟩ := checked_ok.mp hs
      obtain ⟨locking, taken, he⟩ := bind_ok.mp returned
      cases he
      obtain ⟨locks, polls, rfl⟩ := guarded.locks.takePoll taken
      have taken : Guarded { nesting with
          toLocking := { nesting.toLocking with toKernel := { nesting.toKernel with polls } } } :=
        ⟨locks, alone none⟩
      exact taken.beginPoll (respects_begun rfl respects) nesting.draining
  | handler op =>
      cases active : nesting.active with
      | nil => simp [Nesting.step, active] at hs
      | cons top rest =>
          simp only [Nesting.step, active] at hs
          obtain ⟨locking, hp, rfl⟩ := within_ok hs
          refine guarded.operate active (fun ceiling he => ?_) hp
          subst he
          simpa [respectsCeilings, enteredCeiling, begunHandler, executed, running, active]
            using respects
  | request op =>
      obtain ⟨⟨-, requests⟩, returned⟩ := checked_ok.mp hs
      obtain ⟨locking, hp, rfl⟩ := within_ok returned
      obtain ⟨kernel, operated, -, rfl⟩ := Locking.performInKernel_ok hp
      obtain ⟨scheduling, current⟩ := request_current requests operated
      have checked : nesting.toKernel.respectsLocks op = true := by
        simpa [respectsCeilings, enteredCeiling, begunHandler, executed] using respects
      refine ⟨guarded.locks.perform (respects_scheduling scheduling checked) hp, ?_⟩
      refine guarded.stacked.perform guarded.locks.sound hp current fun lower _ => ?_
      cases lower with
      | thread thread => simp [Locking.lockOp, scheduling]
      | interrupt handler => rfl
  | finish =>
      cases active : nesting.active with
      | nil => simp [Nesting.step, active] at hs
      | cons top rest =>
          simp only [Nesting.step, active] at hs
          exact guarded.endContext active hs
  | reschedule now =>
      obtain ⟨⟨none, -⟩, returned⟩ := checked_ok.mp hs
      obtain ⟨locking, hp, he⟩ := bind_ok.mp returned
      cases he
      have checked : nesting.toKernel.respectsLocks (.executePendingReschedule now) = true := by
        simpa [respectsCeilings, enteredCeiling, begunHandler, executed] using respects
      exact ⟨guarded.locks.perform (respects_scheduling rfl checked) hp, alone none⟩

end

/-- No context is inside a section of a ceiling while one it preempted is inside another. -/
def SectionsApart (nesting : Nesting) : Prop :=
  ∀ context ceiling,
    nesting.Preempted context
    → nesting.Inside nesting.running ceiling
    → ¬ nesting.Inside context ceiling

/-- The current thread has at most the base priority of what runs. -/
theorem Guarded.base_current_le (guarded : nesting.Guarded)
    : nesting.toKernel.baseRank nesting.currentThread
      ≤ (nesting.account nesting.running).base.rank := by
  have hm : ExecutionContext.thread nesting.currentThread ∈ nesting.stack := by simp [stack]
  rw [stack_eq] at hm
  rcases List.mem_cons.mp hm with he | below
  · rw [← he]
    exact Nat.le_refl _
  · have above := guarded.stacked.priority_lt below
    have active := (guarded.locks.sound.bounds (.thread nesting.currentThread)).1
    exact Nat.le_trans active (Nat.le_of_lt above)

/-- Sections of one ceiling are apart: the upper context is at or below the ceiling, and above
everything that was preempted.
-/
theorem Guarded.sectionsApart (guarded : nesting.Guarded) : nesting.SectionsApart := by
  intro context ceiling preempted running inside
  have entered := guarded.locks.below nesting.running ceiling running
  have stacked (below : context ∈ nesting.stack.tail) : False := by
    have above := guarded.stacked.priority_lt below
    have opened := (guarded.locks.sound.bounds context).2 ceiling inside
    omega
  cases context with
  | interrupt handler =>
      apply stacked
      obtain ⟨entry, below, rfl⟩ := List.mem_map.mp preempted
      unfold stack
      cases active : nesting.active with
      | nil => simp [active] at below
      | cons running rest =>
          rw [active] at below
          exact List.mem_append_left _ (List.mem_map.mpr ⟨entry, below, rfl⟩)
  | thread thread =>
      rcases preempted with ⟨rfl, some⟩ | ⟨other, notIdle⟩
      · apply stacked
        unfold stack
        cases active : nesting.active with
        | nil => exact absurd active some
        | cons running rest => exact List.mem_append_right _ (by simp)
      · have outranks := guarded.locks.separated.current.resolve_left notIdle thread other
        have holds : nesting.toKernel.Holds thread ceiling := Or.inr inside
        have locked := guarded.locks.kernel.locks.rank_lt_lockKey holds
        have current := guarded.base_current_le
        omega

/-- An acquisition above its ceiling raises the violation exactly when it is of a scoped lock, by a
handler or by a thread that is neither idle nor the owner; it does so before anything changes. In
every run within `respectsCeilings` no context is inside a section of a ceiling while one that it
preempted is inside another. Witness: the stack is ordered by base priorities above the active
priorities below.
-/
theorem ceilings_enforced (fuel : Nat)
    : (∀ (locking : Locking) (context : ExecutionContext) (acquisition : Acquisition),
        locking.Executes context
        → locking.acquiredCeiling acquisition < locking.priority context
        → (locking.perform fuel (Locking.acquire context acquisition)
            = .error .ceilingPriorityViolation
          ↔ locking.IsChecked context acquisition))
      ∧ ∀ (program : Program) (nesting : Nesting),
          Reaches (Nesting.step fuel) (fun before event => before.respectsCeilings event = true)
            (Nesting.start program) nesting
          → nesting.SectionsApart := by
  refine ⟨fun locking context acquisition executes above => ?_, fun program nesting reached => ?_⟩
  · exact Locking.acquire_violation_iff executes above
  · have guarded : nesting.Guarded :=
      reached.invariant Guarded (start_guarded program)
        fun _ _ _ guarded respects hs => guarded.step respects hs
    exact guarded.sectionsApart

/-- Thread 2 is inside a section of ceiling 3, and thread 5, which preempts it, inside one of
ceiling 6, when handler 4 fires, enters a section of its own priority and resumes the executor of
handler 2, whose task is inside a section when it is polled at the end.
-/
theorem ceilings_enforced_nested
    : let program : Program :=
        ⟨fun thread => .thread thread.toUInt8, fun _ => .thread 1,
          fun handler => .interrupt handler.toUInt8⟩
      let ran := run (Nesting.step 2) (Nesting.start program)
        [.thread (.start 2), .thread (.executePendingReschedule 0),
          .thread (.enterSection (.thread 3)), .thread (.start 5),
          .thread (.executePendingReschedule 0), .thread (.enterSection (.thread 6)),
          .interrupt 4, .handler (.enter (.interrupt 4)), .request (.resumeInterrupt 2),
          .handler .leave, .finish, .drain 2, .handler (.enter (.interrupt 2))]
      ran.map (fun nesting => (nesting.running, nesting.currentThread)) = .ok (.interrupt 2, 5)
      ∧ (∀ nesting, ran = .ok nesting → nesting.SectionsApart)
      ∧ ∀ nesting,
          ran = .ok nesting
          → nesting.toLocking.perform 2 (Locking.acquire (.interrupt 2) (.scopedLock 0))
            = .error .ceilingPriorityViolation := by
  intro program ran
  have checks := ceilings_enforced 2
  refine ⟨by unfold ran program; rfl, fun nesting ended => ?_, fun nesting ended => ?_⟩
  · exact checks.2 program nesting (Reaches.here.run_allowed _ (by unfold program; rfl) ended)
  · have ceiling : nesting.acquiredCeiling (.scopedLock 0) = .thread 1 :=
      view_of_ok (fun nesting : Nesting => nesting.acquiredCeiling (.scopedLock 0)) ended
        (by unfold ran program; rfl)
    have priority : nesting.priority (.interrupt 2) = .interrupt 2 :=
      view_of_ok (fun nesting : Nesting => nesting.priority (.interrupt 2)) ended
        (by unfold ran program; rfl)
    have above : nesting.acquiredCeiling (.scopedLock 0) < nesting.priority (.interrupt 2) := by
      rw [ceiling, priority]
      decide
    exact (checks.1 nesting.toLocking (.interrupt 2) (.scopedLock 0) trivial above).mpr trivial

/-- Thread 5 preempts thread 2 inside a section of ceiling 3, and enters a section of ceiling
3 itself, far above that ceiling.
-/
theorem section_above_ceiling
    : let program : Program :=
        ⟨fun thread => .thread thread.toUInt8, fun _ => .thread 1, fun _ => .interrupt 2⟩
      let preempting := run (Nesting.step 1) (Nesting.start program)
        [.thread (.start 2), .thread (.executePendingReschedule 0),
          .thread (.enterSection (.thread 3)), .thread (.start 5),
          .thread (.executePendingReschedule 0)]
      let entered := preempting.bind fun nesting =>
        nesting.step 1 (.thread (.enterSection (.thread 3)))
      preempting.map (fun nesting => (nesting.running, nesting.priority nesting.running))
        = .ok (.thread 5, .thread 5)
      ∧ (∃ nesting, entered = .ok nesting)
      ∧ ∀ nesting, entered = .ok nesting → ¬ nesting.SectionsApart := by
  intro program preempting entered
  refine ⟨by unfold preempting program; rfl,
    by unfold entered preempting program; exact ⟨_, rfl⟩, fun nesting ended apart => ?_⟩
  have sections (thread : ThreadId) (inside : thread = 2 ∨ thread = 5)
      : (nesting.account (.thread thread)).sections = [⟨.thread 3, .invalid⟩] := by
    refine view_of_ok (fun nesting : Nesting => (nesting.account (.thread thread)).sections)
      ended ?_
    rcases inside with rfl | rfl <;> unfold entered preempting program <;> rfl
  have running : nesting.running = .thread 5 :=
    view_of_ok Nesting.running ended (by unfold entered preempting program; rfl)
  have current : nesting.currentThread = 5 :=
    view_of_ok (fun nesting : Nesting => nesting.currentThread) ended
      (by unfold entered preempting program; rfl)
  have preempted : nesting.Preempted (.thread 2) := Or.inr (by rw [current]; decide)
  refine apart (.thread 2) (.thread 3) preempted ?_ ⟨⟨.thread 3, .invalid⟩, ?_, rfl⟩
  · rw [running]
    exact ⟨⟨.thread 3, .invalid⟩, by rw [sections 5 (by simp)]; simp, rfl⟩
  · rw [sections 2 (by simp)]
    simp

end Scars.Nesting
