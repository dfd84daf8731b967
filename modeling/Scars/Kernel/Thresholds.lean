import Scars.Kernel.InterruptContext

/-! What scheduler operations and polls leave of the interrupt threshold.
Each raised priority is restored to what the handler stored before, and the threshold is
programmed to the handler's level, whatever it was at entry.
-/

namespace Scars

open Runs

namespace Kernel

variable {kernel kernel' : Kernel} {thread : ThreadId}

/-- The wait leaves the level of what the syscall handler stores. -/
theorem waitCurrentThread_threshold {queue : WaitQueueId} {ceiling : Priority}
    (waited : kernel.waitCurrentThread queue ceiling = .ok kernel')
    : kernel'.interruptThreshold
      = Locking.thresholdOf
          ((kernel.handler SYSCALL_INTERRUPT_HANDLER).lockPriorities.1.max
            (kernel.handler SYSCALL_INTERRUPT_HANDLER).lockPriorities.2) := by
  obtain ⟨-, enqueued, hi, blocks⟩ := waitCurrentThread_ok waited
  have owned : (enqueued.handler SYSCALL_INTERRUPT_HANDLER).lockPriorities.2
      = (kernel.handler SYSCALL_INTERRUPT_HANDLER).lockPriorities.2 := by
    rw [(moves_insertToWaitQueue hi).handler]
    simp only [raisedForWait, raiseHandlerNesting, setHandlerPriorities_handler,
      Function.update_self, steady_moves.handOver.handler]
  have saved : (kernel.raisedForWait ceiling).1
      = (kernel.handler SYSCALL_INTERRUPT_HANDLER).lockPriorities.1 := by
    simp only [raisedForWait, raiseHandlerNesting, steady_moves.handOver.handler]
  rw [(steady_moves.blockThread blocks).threshold, saved, ← owned]
  exact Locking.setCeilingThreshold_threshold _

/-- Of the operations of the scheduler only the wait programs the threshold. -/
theorem perform_threshold {fuel : Nat} {op : Op} (noLock : Locking.threadLockOp op = none)
    (hp : kernel.perform fuel op = .ok kernel')
    : kernel'.interruptThreshold
      = (KernelWork.scheduler op).raises.elim kernel.interruptThreshold fun handler =>
          Locking.thresholdOf
            ((kernel.handler handler).lockPriorities.1.max
              (kernel.handler handler).lockPriorities.2) := by
  cases op with
  | wait queue ceiling => exact waitCurrentThread_threshold hp
  | lock lock | unlock lock | enterSection ceiling | leaveSection => cases noLock
  | _ => exact (controls_perform id (by simp) hp).2

end Kernel

namespace Locking

variable {before middle after : Locking} {fuel : Nat} {handler : HandlerId} {tasks : List TaskWork}

theorem ownedStatus_of_sound (sound : before.Sound) (handler : HandlerId)
    : (before.account (.interrupt handler)).withLocks before.ceilingOf (before.ownedLocks handler)
      = before.account (.interrupt handler) := by
  have owned := (sound.handlers handler).owned
  simp only [LockAccount.withLocks]
  rw [show LockAccount.ownedStatus before.ceilingOf (before.ownedLocks handler)
      = (before.account (.interrupt handler)).lockPriorities.2 from owned.symm]
  rfl

/-- What every piece of work leaves alone: the threads' locks and the ceilings. -/
structure Serves (before after : Locking) : Prop where
  sound : after.Sound
  thread : after.thread = before.thread
  ceilingOf : after.ceilingOf = before.ceilingOf

theorem Serves.trans (first : Serves before middle) (second : Serves middle after)
    : Serves before after :=
  ⟨second.sound, second.thread.trans first.thread, second.ceilingOf.trans first.ceilingOf⟩

theorem Sound.performScheduler (sound : before.Sound) {op : Op}
    (hp : before.performScheduler fuel op = .ok after)
    : Serves before after
      ∧ (∀ handler, after.account (.interrupt handler) = before.account (.interrupt handler))
      ∧ after.interruptThreshold
        = (KernelWork.scheduler op).raises.elim before.interruptThreshold fun handler =>
            thresholdOf (after.account (.interrupt handler)).lockPriority := by
  obtain ⟨noLock, operated⟩ := checked_ok.mp hp
  have event : before.perform fuel (.kernel op) = .ok after := operated
  have follows (handler : HandlerId)
      : after.account (.interrupt handler) = before.account (.interrupt handler) :=
    sound.follows event (.interrupt handler)
  obtain ⟨kernel, kernelOp, -, rfl⟩ := performInKernel_ok operated
  have keeps : ¬ Kernel.ChangesLocks op := by
    intro changes
    cases op <;> first | exact changes | cases noLock
  refine ⟨⟨sound.perform event, (Kernel.scheduling_perform keeps kernelOp).thread, ?_⟩, follows,
    ?_⟩
  · exact perform_ceilingOf sound event
  · simp only [follows]
    exact Kernel.perform_threshold noLock kernelOp

theorem account_after_locks {ceilingOf : LockId → Priority} {account : LockAccount} (op : LockOp)
    : (account.after ceilingOf op).locks
      = (TaskWork.lock op).locksAfter ceilingOf account.locks := by
  cases op with
  | leave => unfold LockAccount.after; dsimp only; split <;> rfl
  | _ => rfl

/-- What the tasks of a handler leave alone, and the locks that it has. -/
structure Attends (handler : HandlerId) (before after : Locking) : Prop extends
    Serves before after where
  others
    : ∀ other, other ≠ handler
        → after.account (.interrupt other) = before.account (.interrupt other)
  base
    : (after.account (.interrupt handler)).base = (before.account (.interrupt handler)).base

theorem Attends.trans (first : Attends handler before middle)
    (second : Attends handler middle after)
    : Attends handler before after where
  toServes := first.toServes.trans second.toServes
  others other hne := (second.others other hne).trans (first.others other hne)
  base := second.base.trans first.base

theorem Sound.attends (sound : before.Sound) {op : LockOp}
    (hp : before.performInInterrupt handler op = .ok after)
    : Attends handler before after
      ∧ after.account (.interrupt handler)
        = (before.account (.interrupt handler)).after before.ceilingOf op
      ∧ after.interruptThreshold
        = thresholdOf (after.account (.interrupt handler)).lockPriority := by
  have event : before.perform 0 (.handler handler op) = .ok after := hp
  have rewrites := (sound.performInInterrupt hp).2
  refine ⟨⟨⟨sound.perform event, rewrites.thread, perform_ceilingOf sound event⟩,
    fun other hne => ?_, ?_⟩, rewrites.self, ?_⟩
  · exact account_interrupt_congr (rewrites.others other hne)
      (rewrites.otherLocks other hne) (rewrites.otherSections other hne)
  · rw [rewrites.self, LockAccount.after_base]
  · rw [rewrites.self]
    exact rewrites.threshold

theorem Sound.performTask (sound : before.Sound) {task : TaskWork}
    (hp : before.performTask fuel handler task = .ok after)
    : Attends handler before after
      ∧ after.ownedLocks handler
        = task.locksAfter before.ceilingOf (before.ownedLocks handler) := by
  cases task with
  | lock op =>
      obtain ⟨attends, follows, -⟩ := sound.attends hp
      refine ⟨attends, ?_⟩
      have locks := congrArg LockAccount.locks follows
      rw [account_after_locks] at locks
      exact locks
  | scheduler op =>
      obtain ⟨serves, accounts, -⟩ := sound.performScheduler hp
      refine ⟨⟨serves, fun other _ => accounts other, by rw [accounts]⟩, ?_⟩
      exact congrArg LockAccount.locks (accounts handler)

/-- All tasks of a poll, by induction on what they do. -/
theorem Sound.performTasks (sound : before.Sound)
    (hp : run (Locking.performTask fuel handler) before tasks = .ok after)
    : Attends handler before after
      ∧ after.ownedLocks handler
        = tasks.foldl (TaskWork.locksAfter before.ceilingOf) (before.ownedLocks handler) := by
  induction tasks generalizing before with
  | nil =>
      cases hp
      exact ⟨⟨⟨sound, rfl, rfl⟩, fun _ _ => rfl, rfl⟩, rfl⟩
  | cons task rest ih =>
      obtain ⟨middle, first, later⟩ := bind_ok.mp hp
      obtain ⟨attends, locks⟩ := sound.performTask first
      obtain ⟨attends', locks'⟩ := ih attends.sound later
      refine ⟨attends.trans attends', ?_⟩
      rw [locks', locks, attends.ceilingOf, List.foldl_cons]

theorem nested_unique {base : Priority} {initial first second : PriorityStatus}
    {sections : List CeilingSection} (one : LockAccount.Nested base initial sections first)
    (two : LockAccount.Nested base initial sections second)
    : first = second := by
  cases sections with
  | nil => exact one.trans two.symm
  | cons innermost rest => exact one.2.trans two.2.symm

/-- Sections determine the nesting priority, so a handler with the sections that it had differs at
most in its locks.
-/
theorem Serves.account_eq (serves : Serves before after) (sound : before.Sound)
    (base
      : (after.account (.interrupt handler)).base = (before.account (.interrupt handler)).base)
    (sections : after.openSections handler = before.openSections handler)
    : after.account (.interrupt handler)
      = (before.account (.interrupt handler)).withLocks before.ceilingOf
          (after.ownedLocks handler) := by
  have nested := (serves.sound.handlers handler).nested
  have owned := (serves.sound.handlers handler).owned
  have basePriority
      : (after.handler handler).basePriority = (before.handler handler).basePriority := base
  simp only [account, basePriority, sections] at nested
  have nesting : (after.handler handler).lockPriorities.1
      = (before.handler handler).lockPriorities.1 :=
    nested_unique nested (sound.handlers handler).nested
  rw [serves.ceilingOf] at owned
  simp only [account, LockAccount.withLocks, basePriority, sections, ← nesting]
  rw [← show (after.handler handler).lockPriorities.2
      = LockAccount.ownedStatus before.ceilingOf (after.ownedLocks handler) from owned]

/-- A poll ends with the sections that it found, and with the locks that its tasks left. -/
theorem Sound.pollExecutor (sound : before.Sound)
    (polled : before.pollExecutor fuel handler tasks = .ok after)
    : Attends handler before after
      ∧ after.account (.interrupt handler)
        = (before.account (.interrupt handler)).withLocks before.ceilingOf
            (tasks.foldl (TaskWork.locksAfter before.ceilingOf) (before.ownedLocks handler))
      ∧ after.interruptThreshold
        = thresholdOf (after.account (.interrupt handler)).lockPriority := by
  obtain ⟨busy, hp, left⟩ := bind_ok.mp polled
  obtain ⟨closed, left⟩ := checked_ok.mp left
  have enters : before.performInInterrupt handler
      (.enter (before.handler handler).basePriority)
      = .ok (before.enterSectionInInterrupt handler (before.handler handler).basePriority) := rfl
  have leaves : busy.performInInterrupt handler .leave = .ok after := left
  obtain ⟨entered, -, -⟩ := sound.attends enters
  obtain ⟨attends, locks⟩ := entered.sound.performTasks hp
  obtain ⟨leaving, -, threshold⟩ := attends.sound.attends leaves
  have whole := (entered.trans attends).trans leaving
  obtain ⟨innermost, rest, opened, rfl⟩ := leaveSectionInInterrupt_ok left
  have sections : rest = before.openSections handler := by
    rw [closed] at opened
    simp only [enterSectionInInterrupt, Function.update_self] at opened
    exact (List.cons.inj opened).2.symm
  refine ⟨whole, ?_, threshold⟩
  rw [whole.toServes.account_eq sound whole.base (by simp [sections])]
  rw [← entered.ceilingOf]
  exact congrArg (fun locks => LockAccount.withLocks _ locks _) locks

end Locking

end Scars
