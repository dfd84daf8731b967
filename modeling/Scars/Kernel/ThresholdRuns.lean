import Scars.Kernel.Thresholds

/-! The interrupt threshold after a whole `interrupt_context`, and after the context switch.
It is that of the handler restored last, whatever it was at entry.
-/

namespace Scars

open Runs

namespace Locking

variable {before middle after : Locking} {fuel : Nat} {handler : HandlerId}

/-- What an `interrupt_context` did: the handlers keep their nesting priorities and have the locks
that their tasks left, and the threshold is the level of the handler that was raised last.
-/
structure Worked (before : Locking) (works : List KernelWork) (after : Locking) : Prop extends
    Serves before after where
  account
    : ∀ handler,
        after.account (.interrupt handler)
        = (before.account (.interrupt handler)).withLocks before.ceilingOf
            (before.locksLeft works handler)
  threshold
    : after.interruptThreshold
      = (lastRaised works).elim before.interruptThreshold fun handler =>
          thresholdOf (after.account (.interrupt handler)).lockPriority

theorem Worked.none (sound : before.Sound) : Worked before [] before where
  toServes := ⟨sound, rfl, rfl⟩
  account handler := (ownedStatus_of_sound sound handler).symm
  threshold := rfl

theorem Sound.worked_poll (sound : before.Sound) {work : KernelWork} {tasks : List TaskWork}
    (raises : work.raises = some handler)
    (tasksOf : ∀ other, work.tasksOf other = if handler = other then tasks else [])
    (polled : before.pollExecutor fuel handler tasks = .ok after)
    : Worked before [work] after := by
  obtain ⟨attends, own, threshold⟩ := sound.pollExecutor polled
  refine ⟨attends.toServes, fun other => ?_, ?_⟩
  · by_cases he : handler = other
    case pos =>
        subst he
        simpa [locksLeft, tasksOf] using own
    case neg =>
        rw [attends.others other (Ne.symm he)]
        simpa [locksLeft, tasksOf, he] using (ownedStatus_of_sound sound other).symm
  · simpa [lastRaised, raises] using threshold

theorem Sound.takePoll (sound : before.Sound) (taken : before.takePoll fuel handler = .ok after)
    : after.Sound
      ∧ ∃ polls, after = { before with toKernel := { before.toKernel with polls } } := by
  unfold Locking.takePoll at taken
  split at taken
  next popped polls _ =>
    obtain ⟨-, he⟩ := checked_ok.mp taken
    cases he
    refine ⟨⟨fun thread => ?_, sound.handlers, sound.linked, sound.apart⟩, polls, rfl⟩
    exact (sound.threads thread).congr rfl (fun _ => rfl) fun _ => Iff.rfl
  next => cases taken
  next => cases taken

theorem Sound.work (sound : before.Sound) {work : KernelWork}
    (worked : before.work fuel work = .ok after)
    : Worked before [work] after := by
  cases work with
  | scheduler op =>
      obtain ⟨serves, accounts, threshold⟩ := sound.performScheduler worked
      refine ⟨serves, fun handler => ?_, ?_⟩
      · rw [accounts]
        exact (ownedStatus_of_sound sound handler).symm
      · simpa [lastRaised] using threshold
  | poll handler tasks => exact sound.worked_poll rfl (fun _ => rfl) worked
  | drain handler tasks =>
      obtain ⟨taken, takes, polled⟩ := bind_ok.mp worked
      obtain ⟨soundly, polls, rfl⟩ := sound.takePoll takes
      have poll : Worked _ [.drain handler tasks] after :=
        soundly.worked_poll rfl (fun _ => rfl) polled
      exact ⟨⟨poll.sound, poll.thread, poll.ceilingOf⟩, poll.account, poll.threshold⟩

theorem locksLeft_of_quiet {works : List KernelWork} (quiet : lastRaised works = none)
    (handler : HandlerId)
    : before.locksLeft works handler = before.ownedLocks handler := by
  have none : works.flatMap (KernelWork.tasksOf handler) = [] := by
    induction works with
    | nil => rfl
    | cons work rest ih =>
        obtain ⟨later, now⟩ := Option.or_eq_none_iff.mp quiet
        rw [List.flatMap_cons, ih later, List.append_nil]
        cases work with
        | scheduler op => rfl
        | poll handler tasks | drain handler tasks => cases now
  simp [locksLeft, none]

theorem Worked.cons {work : KernelWork} {rest : List KernelWork}
    (first : Worked before [work] middle) (later : Worked middle rest after)
    : Worked before (work :: rest) after where
  toServes := first.toServes.trans later.toServes
  account handler := by
    have locks := congrArg LockAccount.locks (first.account handler)
    have left : middle.ownedLocks handler = before.locksLeft [work] handler := locks
    rw [later.account, first.account, first.ceilingOf]
    simp only [LockAccount.withLocks, locksLeft, left, first.ceilingOf, List.flatMap_cons,
      List.flatMap_nil, List.append_nil, List.foldl_append]
  threshold := by
    rw [later.threshold]
    cases last : lastRaised rest with
    | some handler => simp [lastRaised, last]
    | none =>
        rw [first.threshold]
        simp only [lastRaised, last, Option.none_or]
        cases work.raises with
        | none => rfl
        | some handler =>
            have he
                : after.account (.interrupt handler) = middle.account (.interrupt handler) := by
              rw [later.account, locksLeft_of_quiet last]
              exact ownedStatus_of_sound first.sound handler
            exact congrArg (fun account => thresholdOf account.lockPriority) he.symm

/-- The whole `interrupt_context`, by induction on its work. -/
theorem Sound.interruptContext (sound : before.Sound) {works : List KernelWork}
    (worked : before.interruptContext fuel works = .ok after)
    : Worked before works after := by
  induction works generalizing before with
  | nil =>
      cases worked
      exact .none sound
  | cons work rest ih =>
      obtain ⟨middle, first, later⟩ := bind_ok.mp worked
      have done := sound.work first
      exact done.cons (ih done.sound later)

/-- The threshold is the one at entry exactly when the handler restored last is at its level. -/
theorem Worked.threshold_iff {works : List KernelWork} (worked : Worked before works after)
    : after.interruptThreshold = before.interruptThreshold ↔ before.restores works = true := by
  rw [worked.threshold]
  unfold restores
  cases lastRaised works with
  | none => simp
  | some handler =>
      simp only [worked.account, beq_iff_eq]
      exact Iff.rfl

end Locking

namespace Processor

variable {processor : Processor} {previous : ThreadId}

theorem switchContext_currentThread
    : (processor.switchContext previous).currentThread = processor.currentThread := by
  unfold switchContext
  split <;> rfl

theorem switchContext_lockPriority (thread : ThreadId)
    : (processor.switchContext previous).lockPriority thread = processor.lockPriority thread := by
  unfold switchContext
  split <;> rfl

theorem switchContext_savedThreshold (switched : processor.currentThread ≠ previous)
    : (processor.switchContext previous).savedThreshold previous
      = processor.interruptThreshold := by
  unfold switchContext
  rw [if_neg switched.symm]
  exact Function.update_self ..

/-- An `interrupt_context` leaves the threshold at its value at entry exactly when it raised no
priority or the handler raised last is restored to that level; then this is the threshold that
the interrupted thread goes on with, and if it is switched out, the one that its locks imply is
saved for it.
-/
theorem threshold_kept_iff (fuel : Nat) (before after : Processor) (works : List KernelWork)
    (sound : before.toLocking.Sound) (entered : before.enterKernel fuel works = .ok after)
    : (after.currentThread = before.currentThread
        → (after.interruptThreshold = before.interruptThreshold
          ↔ before.restores works = true))
      ∧ (after.currentThread ≠ before.currentThread
        → before.ThresholdMatches before.currentThread
        → (after.savedThreshold before.currentThread
              = Locking.thresholdOf (after.lockPriority before.currentThread)
          ↔ before.restores works = true)) := by
  obtain ⟨locking, context, he⟩ := bind_ok.mp entered
  have worked := sound.interruptContext context
  rw [← worked.threshold_iff]
  cases he
  rw [switchContext_currentThread]
  refine ⟨fun stays => ?_, fun switched set => ?_⟩
  · rw [switchContext, if_pos stays.symm]
  · have locks : locking.lockPriority before.currentThread
        = before.lockPriority before.currentThread := by
      simp only [Kernel.lockPriority, worked.thread]
    rw [switchContext_savedThreshold switched, switchContext_lockPriority, locks, ← set]

/-- Threads have their number as priority, locks a ceiling of level 4, handlers this level. -/
def leveled (level : UInt8) : Program :=
  ⟨fun thread => .thread thread.toUInt8, fun _ => .interrupt 4, fun _ => .interrupt level⟩

/-- Thread 5 has taken these locks when the kernel is entered; the states before and after. -/
def entry (program : Program) (locks : List LockId) (works : List KernelWork)
    : Except Fault (Processor × Processor) := do
  let locking ← run (Locking.perform 1) (Locking.start program)
    (.kernel (.start 5) :: .kernel (.executePendingReschedule 0)
      :: locks.map fun lock => .kernel (.lock lock))
  let before : Processor := ⟨locking, fun _ => 0⟩
  let after ← before.enterKernel 1 works
  return (before, after)

theorem entry_sound {program : Program} {locks : List LockId} {works : List KernelWork}
    {before after : Processor} (ran : entry program locks works = .ok (before, after))
    : before.toLocking.Sound ∧ before.enterKernel 1 works = .ok after := by
  obtain ⟨locking, took, entering⟩ := bind_ok.mp ran
  obtain ⟨last, entered, he⟩ := bind_ok.mp entering
  cases he
  have reached : Reaches (Locking.perform 1) (fun _ _ => True) (Locking.start program) locking :=
    Reaches.here.run (fun _ _ _ => trivial) took
  exact ⟨reached.invariant Locking.Sound (Locking.start_sound program)
    fun _ _ _ sound _ hp => sound.perform hp, entered⟩

/-- Thread 5 holds a lock of level 4 while a handler of that level is polled. -/
theorem threshold_kept_iff_same_level
    : ∃ before after, entry (leveled 4) [0] [.poll 3 []] = .ok (before, after)
        ∧ before.interruptThreshold = 4
        ∧ after.interruptThreshold = before.interruptThreshold := by
  obtain ⟨⟨before, after⟩, ran⟩
    : ∃ both, entry (leveled 4) [0] [.poll 3 []] = .ok both := ⟨_, rfl⟩
  obtain ⟨sound, entered⟩ := entry_sound ran
  have level : before.interruptThreshold = 4 :=
    view_of_ok (fun both : Processor × Processor => both.1.interruptThreshold) ran rfl
  have restores : before.restores [.poll 3 []] = true :=
    view_of_ok (fun both : Processor × Processor => both.1.restores [.poll 3 []]) ran rfl
  have stays : (after.currentThread == before.currentThread) = true :=
    view_of_ok (fun both : Processor × Processor => both.2.currentThread == both.1.currentThread)
      ran rfl
  have kept := (threshold_kept_iff 1 before after [.poll 3 []] sound entered).1
  exact ⟨before, after, ran, level, (kept (beq_iff_eq.mp stays)).mpr restores⟩

/-- A poll leaves the level of the polled handler to a thread without locks. And: a thread that
waits while it holds a lock is switched out with the threshold of the syscall handler saved.
-/
theorem threshold_not_restored
    : (∃ before after, entry (leveled 1) [] [.poll 3 []] = .ok (before, after)
        ∧ after.currentThread = before.currentThread
        ∧ before.interruptThreshold = 0
        ∧ after.interruptThreshold = 1)
      ∧ ∃ before after,
          entry (leveled 1) [0]
            [.scheduler (.wait 0 (.thread 9)), .scheduler (.executePendingReschedule 0)]
            = .ok (before, after)
          ∧ before.currentThread = 5
          ∧ after.currentThread = IDLE_THREAD_ID
          ∧ before.interruptThreshold = 4
          ∧ Locking.thresholdOf (after.lockPriority 5) = 4
          ∧ after.savedThreshold 5 = 0 :=
  ⟨⟨_, _, rfl, rfl, rfl, rfl⟩, _, _, rfl, rfl, rfl, rfl, rfl, rfl⟩

end Processor

end Scars
