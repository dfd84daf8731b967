import Scars.Foundation.Runs
import Scars.Kernel.Locks

/-! What a successful list operation did.
Each lemma says it once; the invariants are derived from these equations and never unfold
an operation again.
-/

namespace Scars.Kernel

open Runs OrderedInsert

variable {kernel kernel' : Kernel} {thread : ThreadId} {lock : LockId}

theorem inExecList_eq_false
    : kernel.inExecList thread = false
      ↔ thread ∉ kernel.readyQueue ∧ thread ∉ kernel.blockedList
        ∧ thread ∉ kernel.suspendedList := by
  simp [inExecList, and_assoc]

/-- Filing a thread as ready: the idle thread only changes state. -/
theorem insertToReadyQueue_ok (hi : kernel.insertToReadyQueue thread = .ok kernel')
    : (thread = IDLE_THREAD_ID ∧ kernel' = kernel.setState thread .ready)
      ∨ (thread ≠ IDLE_THREAD_ID ∧ kernel.inExecList thread = false
        ∧ kernel' = { kernel.setState thread .ready with
            readyQueue :=
              insertPast (kernel.goesBeforeReady thread) thread kernel.readyQueue }) := by
  unfold insertToReadyQueue at hi
  split at hi
  next isIdle => exact Or.inl ⟨isIdle, (Except.ok.inj hi).symm⟩
  next notIdle =>
    dsimp only at hi
    split at hi
    · cases hi
    next free => exact Or.inr ⟨notIdle, eq_false_of_ne_true free, (Except.ok.inj hi).symm⟩

theorem insertToBlockedQueue_ok (hi : kernel.insertToBlockedQueue thread = .ok kernel')
    : thread ≠ IDLE_THREAD_ID ∧ kernel.inExecList thread = false
      ∧ kernel' = { kernel.setState thread .blocked with
          blockedList :=
            insertPast (kernel.goesBeforeBlocked thread) thread kernel.blockedList } := by
  unfold insertToBlockedQueue at hi
  split at hi
  · cases hi
  next notIdle =>
    dsimp only at hi
    split at hi
    · cases hi
    next free => exact ⟨notIdle, eq_false_of_ne_true free, (Except.ok.inj hi).symm⟩

theorem insertToSuspendedList_ok (hi : kernel.insertToSuspendedList thread = .ok kernel')
    : thread ≠ IDLE_THREAD_ID ∧ kernel.inExecList thread = false
      ∧ kernel' = { kernel.setState thread .suspended with
          suspendedList := kernel.suspendedList ++ [thread] } := by
  unfold insertToSuspendedList at hi
  split at hi
  · cases hi
  next notIdle =>
    dsimp only at hi
    split at hi
    · cases hi
    next free => exact ⟨notIdle, eq_false_of_ne_true free, (Except.ok.inj hi).symm⟩

/-- The sleep queue in deadline order with one more entry. -/
def withSleeper (suspendable : Suspendable) (kernel : Kernel) : Kernel :=
  { kernel with
    sleepQueue := insertPast
      (fun queued => deadlineLe (kernel.deadline queued) (kernel.deadline suspendable))
      suspendable kernel.sleepQueue }

theorem insertToSleepQueue_ok {suspendable : Suspendable}
    (hi : kernel.insertToSleepQueue suspendable = .ok kernel')
    : suspendable ∉ kernel.sleepQueue ∧ kernel' = kernel.withSleeper suspendable := by
  unfold insertToSleepQueue at hi
  split at hi
  · cases hi
  next free =>
    exact ⟨by simpa [inSleepQueue] using free, (Except.ok.inj hi).symm⟩

theorem insertToWakeupQueue_ok (hi : kernel.insertToWakeupQueue thread = .ok kernel')
    : thread ≠ IDLE_THREAD_ID ∧ .thread thread ∉ kernel.sleepQueue
      ∧ kernel' = (kernel.setState thread .blocked).withSleeper (.thread thread) := by
  unfold insertToWakeupQueue at hi
  split at hi
  · cases hi
  next notIdle => exact ⟨notIdle, insertToSleepQueue_ok hi⟩

theorem removeFromReadyQueue_ok (removed : kernel.removeFromReadyQueue thread = .ok kernel')
    : thread ∈ kernel.readyQueue
      ∧ kernel' = { kernel with readyQueue := kernel.readyQueue.erase thread } := by
  unfold removeFromReadyQueue at removed
  split at removed
  next found => exact ⟨by simpa using found, (Except.ok.inj removed).symm⟩
  · cases removed

theorem removeFromBlockedList_ok (removed : kernel.removeFromBlockedList thread = .ok kernel')
    : thread ∈ kernel.blockedList
      ∧ kernel' = { kernel with blockedList := kernel.blockedList.erase thread } := by
  unfold removeFromBlockedList at removed
  split at removed
  next found => exact ⟨by simpa using found, (Except.ok.inj removed).symm⟩
  · cases removed

theorem removeFromSuspendedList_ok (removed : kernel.removeFromSuspendedList thread = .ok kernel')
    : thread ∈ kernel.suspendedList
      ∧ kernel' = { kernel with suspendedList := kernel.suspendedList.erase thread } := by
  unfold removeFromSuspendedList at removed
  split at removed
  next found => exact ⟨by simpa using found, (Except.ok.inj removed).symm⟩
  · cases removed

/-- Leaving the sleep queue erases the entry, whether or not it was there. -/
theorem leaveSleepQueue_eq (suspendable : Suspendable)
    : kernel.leaveSleepQueue suspendable
      = { kernel with sleepQueue := kernel.sleepQueue.erase suspendable } := by
  unfold leaveSleepQueue
  split
  · rfl
  next absent =>
    have notQueued : suspendable ∉ kernel.sleepQueue := by simpa [inSleepQueue] using absent
    rw [List.erase_of_not_mem notQueued]

/-- A conditional pop takes an accepted head or changes nothing; in the latter case the
queue is empty or its head was refused.
-/
theorem popReadyIf_cases (accepts : ThreadId → Bool) (kernel : Kernel)
    : (∃ head rest,
        kernel.readyQueue = head :: rest ∧ accepts head = true
        ∧ kernel.popReadyIf accepts = (some head, { kernel with readyQueue := rest }))
      ∨ ((∀ head ∈ kernel.readyQueue.head?, accepts head = false)
        ∧ kernel.popReadyIf accepts = (none, kernel)) := by
  unfold popReadyIf
  split
  next empty => exact Or.inr ⟨by simp [empty], rfl⟩
  next head rest hq =>
    split
    next accepted => exact Or.inl ⟨head, rest, hq, accepted, rfl⟩
    next refused => exact Or.inr ⟨by simpa [hq] using refused, rfl⟩

/-- The lock ceiling as a priority, `MIN` when no lock is held. -/
def locksCeiling (kernel : Kernel) : Priority :=
  kernel.locksPriorityCeiling.unwrapOrDefault Priority.MIN

/-- A blocking thread hands over to the first ready thread if that is above the lock
ceiling, and to the idle thread otherwise.
-/
theorem takeNextAboveLocks_cases (kernel : Kernel)
    : (∃ head rest,
        kernel.readyQueue = head :: rest ∧ kernel.locksCeiling < kernel.priority head
        ∧ kernel.takeNextAboveLocks = (head, { kernel with readyQueue := rest }))
      ∨ ((∀ head ∈ kernel.readyQueue.head?, ¬ kernel.locksCeiling < kernel.priority head)
        ∧ kernel.takeNextAboveLocks = (IDLE_THREAD_ID, kernel)) := by
  have taken
      : kernel.takeNextAboveLocks
        = let popped := kernel.popReadyIf
            fun ready => decide (kernel.locksCeiling < kernel.priority ready)
          (popped.1.getD IDLE_THREAD_ID, popped.2) := rfl
  rw [taken]
  rcases kernel.popReadyIf_cases
      fun ready => decide (kernel.locksCeiling < kernel.priority ready) with
    ⟨head, rest, hq, accepted, popped⟩ | ⟨refused, popped⟩
  · exact Or.inl ⟨head, rest, hq, by simpa using accepted, by rw [popped]; rfl⟩
  · exact Or.inr ⟨by simpa using refused, by rw [popped]; rfl⟩

theorem takeNextAboveLocks_current (kernel : Kernel)
    : kernel.takeNextAboveLocks.2.currentThread = kernel.currentThread := by
  rcases kernel.takeNextAboveLocks_cases with ⟨head, rest, -, -, taken⟩ | ⟨-, taken⟩ <;>
    rw [taken]

theorem takeNextAboveLocks_sleepQueue (kernel : Kernel)
    : kernel.takeNextAboveLocks.2.sleepQueue = kernel.sleepQueue := by
  rcases kernel.takeNextAboveLocks_cases with ⟨head, rest, -, -, taken⟩ | ⟨-, taken⟩ <;>
    rw [taken]

@[simp]
theorem handOver_fst (kernel : Kernel) : kernel.handOver.1 = kernel.currentThread :=
  takeNextAboveLocks_current kernel

theorem handOver_blockedList (kernel : Kernel)
    : kernel.handOver.2.blockedList = kernel.blockedList := by
  change kernel.takeNextAboveLocks.2.blockedList = kernel.blockedList
  rcases kernel.takeNextAboveLocks_cases with ⟨head, rest, -, -, taken⟩ | ⟨-, taken⟩ <;>
    rw [taken]

theorem reprogramAlarm_eq (kernel : Kernel)
    : kernel.reprogramAlarm
      = { kernel with alarm := kernel.sleepQueue.head?.bind kernel.deadline } := by
  unfold reprogramAlarm
  split
  next empty => simp [empty]
  next head rest hq => simp [hq]

/-- Only locks, priorities and the pending request change. -/
def Adjusts (kernel kernel' : Kernel) : Prop :=
  ∃ thread lock handler interruptThreshold pendingRescheduleKind,
    kernel' = { kernel with
      thread := thread, lock := lock, handler := handler,
      interruptThreshold := interruptThreshold,
      pendingRescheduleKind := pendingRescheduleKind }

theorem Adjusts.refl (kernel : Kernel) : kernel.Adjusts kernel := ⟨_, _, _, _, _, rfl⟩

theorem Adjusts.currentThread (adjusts : kernel.Adjusts kernel')
    : kernel'.currentThread = kernel.currentThread := by
  obtain ⟨_, _, _, _, _, rfl⟩ := adjusts
  rfl

theorem Adjusts.trans {first second third : Kernel} (left : first.Adjusts second)
    (right : second.Adjusts third)
    : first.Adjusts third := by
  obtain ⟨_, _, _, _, _, rfl⟩ := left
  obtain ⟨_, _, _, _, _, rfl⟩ := right
  exact ⟨_, _, _, _, _, rfl⟩

theorem adjusts_setCeilingThreshold (ceiling : PriorityStatus)
    : kernel.Adjusts (kernel.setCeilingThreshold ceiling) := by
  cases ceiling <;> exact ⟨_, _, _, _, _, rfl⟩

theorem adjusts_setThread (raw : RawThread)
    : kernel.Adjusts (kernel.setThread thread raw) :=
  ⟨_, _, _, _, _, rfl⟩

theorem adjusts_setLockPriorities (priorities : PriorityStatus × PriorityStatus)
    : kernel.Adjusts (kernel.setLockPriorities thread priorities) :=
  (adjusts_setThread _).trans (adjusts_setCeilingThreshold _)

theorem adjusts_setHandlerPriorities (handler : HandlerId)
    (priorities : PriorityStatus × PriorityStatus)
    : kernel.Adjusts (kernel.setHandlerPriorities handler priorities) := by
  refine Adjusts.trans ?_ (adjusts_setCeilingThreshold _)
  exact ⟨_, _, _, _, _, rfl⟩

theorem adjusts_condReschedule : kernel.Adjusts kernel.condReschedule := by
  unfold condReschedule
  split
  · exact .refl kernel
  · split <;> exact ⟨_, _, _, _, _, rfl⟩

theorem adjusts_requestIfHigher : kernel.Adjusts (kernel.requestIfHigher thread) := by
  unfold requestIfHigher
  dsimp only
  split <;> exact ⟨_, _, _, _, _, rfl⟩

theorem adjusts_lockScoped (locked : kernel.lockScoped lock = .ok kernel')
    : kernel.Adjusts kernel' := by
  unfold lockScoped at locked
  dsimp only at locked
  split at locked
  · cases locked
  split at locked
  · cases locked
  split at locked
  · cases locked
  unfold acquireScopedLock at locked
  split at locked
  · split at locked
    · cases locked
    · cases locked
      refine Adjusts.trans ?_ (adjusts_setLockPriorities _)
      exact ⟨_, _, _, _, _, rfl⟩
  · cases locked

theorem adjusts_releaseScopedLock (released : kernel.releaseScopedLock thread lock = .ok kernel')
    : kernel.Adjusts kernel' := by
  unfold releaseScopedLock at released
  split at released
  · cases released
    refine Adjusts.trans (Adjusts.trans ?_ (adjusts_setLockPriorities _))
      adjusts_condReschedule
    exact ⟨_, _, _, _, _, rfl⟩
  · cases released

theorem adjusts_unlockScoped (unlocked : kernel.unlockScoped lock = .ok kernel')
    : kernel.Adjusts kernel' := by
  unfold unlockScoped at unlocked
  split at unlocked
  · cases unlocked; exact .refl kernel
  split at unlocked
  · cases unlocked
  · exact adjusts_releaseScopedLock unlocked

theorem adjusts_enterSection (ceiling : Priority)
    : kernel.Adjusts (kernel.enterSection ceiling) :=
  (adjusts_setThread _).trans (adjusts_setLockPriorities _)

theorem adjusts_leaveSection (left : kernel.leaveSection = .ok kernel')
    : kernel.Adjusts kernel' := by
  unfold leaveSection at left
  dsimp only at left
  split at left
  · cases left
  · cases left
    exact ((adjusts_setThread _).trans (adjusts_setLockPriorities _)).trans
      adjusts_condReschedule

end Scars.Kernel
