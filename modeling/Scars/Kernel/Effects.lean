import Scars.Kernel.ListEffects

/-! What a successful operation of the scheduler did.
The invariants are derived from these equations and never unfold an operation again.
-/

namespace Scars.Kernel

open Runs OrderedInsert

variable {kernel kernel' : Kernel} {thread : ThreadId} {handler : HandlerId}
  {deadline : Option Instant} {fuel : Nat} {queue : WaitQueueId}

theorem delayThreadUntil_ok {wakeupTime : Instant}
    (delayed : kernel.delayThreadUntil wakeupTime = .ok kernel')
    : kernel.currentThread ≠ IDLE_THREAD_ID
      ∧ kernel.handOver.2.blockThread kernel.currentThread (some wakeupTime)
        = .ok kernel' := by
  unfold delayThreadUntil at delayed
  split at delayed
  · cases delayed
  next notIdle => exact ⟨notIdle, by simpa using delayed⟩

/-- The kernel while the syscall handler holds the wait queue's ceiling, and the nesting
priority it restores afterwards.
-/
def raisedForWait (ceiling : Priority) (kernel : Kernel) : PriorityStatus × Kernel :=
  kernel.handOver.2.raiseHandlerNesting SYSCALL_INTERRUPT_HANDLER ceiling

theorem waitCurrentThread_ok {ceiling : Priority}
    (waited : kernel.waitCurrentThread queue ceiling = .ok kernel')
    : kernel.currentThread ≠ IDLE_THREAD_ID
      ∧ ∃ enqueued,
          (kernel.raisedForWait ceiling).2.insertToWaitQueue queue
            (.thread kernel.currentThread) = .ok enqueued
          ∧ (enqueued.setHandlerNesting SYSCALL_INTERRUPT_HANDLER
            (kernel.raisedForWait ceiling).1).blockThread kernel.currentThread none
            = .ok kernel' := by
  unfold waitCurrentThread at waited
  split at waited
  · cases waited
  next notIdle =>
    rw [← handOver_fst kernel]
    exact ⟨by simpa using notIdle, bind_ok.mp waited⟩

theorem blockUnlessReceived_ok {events received : Events}
    (blocks : kernel.blockUnlessReceived events deadline received = .ok kernel')
    : (mustBlock events received = true
        ∧ kernel.handOver.2.blockThread kernel.currentThread deadline = .ok kernel')
      ∨ (mustBlock events received = false ∧ kernel' = kernel) := by
  unfold blockUnlessReceived at blocks
  split at blocks
  next must => exact Or.inl ⟨must, by simpa using blocks⟩
  next mayNot => exact Or.inr ⟨eq_false_of_ne_true mayNot, (Except.ok.inj blocks).symm⟩

/-- The kernel once the current thread has stored its request and read the events that
were already sent, and the events it read.
-/
def requested (events : Events) (kernel : Kernel) : Events × Kernel :=
  (kernel.setWaitedEvents events).consumeEvents events

theorem waitCurrentThreadEvent_ok {events : Events} {result : Events × Kernel}
    (waited : kernel.waitCurrentThreadEvent events deadline = .ok result)
    : kernel.currentThread ≠ IDLE_THREAD_ID ∧ result.1 = (kernel.requested events).1
      ∧ (kernel.requested events).2.blockUnlessReceived events deadline
        (kernel.requested events).1 = .ok result.2 := by
  unfold waitCurrentThreadEvent at waited
  split at waited
  · cases waited
  next notIdle =>
    obtain ⟨blocked, blocks, rfl⟩ := bind_pure_ok.mp waited
    exact ⟨notIdle, rfl, blocks⟩

theorem blockThread_none
    : kernel.blockThread thread none
      = (kernel.setDeadline (.thread thread) none).insertToBlockedQueue thread := rfl

/-- Blocking with a deadline puts the thread to sleep, programs the alarm and files it. -/
theorem blockThread_some {deadline : Instant}
    (blocks : kernel.blockThread thread (some deadline) = .ok kernel')
    : thread ≠ IDLE_THREAD_ID ∧ .thread thread ∉ kernel.sleepQueue
      ∧ (((kernel.setDeadline (.thread thread) (some deadline)).setState thread
          .blocked).withSleeper (.thread thread)).reprogramAlarm.insertToBlockedQueue thread
        = .ok kernel' := by
  obtain ⟨asleep, slept, hi⟩ := bind_ok.mp blocks
  obtain ⟨notIdle, awake, rfl⟩ := insertToWakeupQueue_ok slept
  exact ⟨notIdle, awake, hi⟩

/-- Blocking files the thread under its deadline; what sleeps and the alarm may change. -/
theorem blockThread_ok {timeout : Option Instant}
    (blocks : kernel.blockThread thread timeout = .ok kernel')
    : thread ≠ IDLE_THREAD_ID
      ∧ ∃ sleepQueue alarm,
          kernel' = { (kernel.setDeadline (.thread thread) timeout).setState thread .blocked with
            sleepQueue, alarm
            blockedList :=
              insertPast (kernel.goesBeforeBlocked thread) thread kernel.blockedList } := by
  cases timeout with
  | none =>
      obtain ⟨notIdle, -, rfl⟩ := insertToBlockedQueue_ok blocks
      exact ⟨notIdle, _, _, rfl⟩
  | some deadline =>
      obtain ⟨-, -, hi⟩ := blockThread_some blocks
      rw [reprogramAlarm_eq] at hi
      obtain ⟨notIdle, -, he⟩ := insertToBlockedQueue_ok hi
      simp only [setState, withSleeper, Function.update_idem] at he
      exact ⟨notIdle, _, _, he⟩

theorem blockThread_frame {timeout : Option Instant}
    (blocks : kernel.blockThread thread timeout = .ok kernel')
    : kernel'.currentThread = kernel.currentThread ∧ kernel'.readyQueue = kernel.readyQueue
      ∧ ∀ other, other ∈ kernel'.blockedList ↔ other = thread ∨ other ∈ kernel.blockedList := by
  obtain ⟨-, _, _, rfl⟩ := blockThread_ok blocks
  exact ⟨rfl, rfl, fun _ => mem_insertPast⟩

/-- A thread taken off the blocked list. -/
def unblocked (thread : ThreadId) (kernel : Kernel) : Kernel :=
  { kernel with blockedList := kernel.blockedList.erase thread }

/-- A thread taken off the suspended list. -/
def unsuspended (thread : ThreadId) (kernel : Kernel) : Kernel :=
  { kernel with suspendedList := kernel.suspendedList.erase thread }

/-- Waking moves a blocked thread and does nothing to any other. -/
theorem wakeupThread_ok (woken : kernel.wakeupThread thread = .ok kernel')
    : thread ≠ IDLE_THREAD_ID
      ∧ ((kernel.state thread = .blocked ∧ thread ∈ kernel.blockedList
          ∧ ((kernel.setWakeupEvent thread).unblocked thread).insertToReadyQueue thread
            = .ok kernel')
        ∨ (kernel.state thread ≠ .blocked ∧ kernel' = kernel)) := by
  unfold wakeupThread at woken
  split at woken
  · cases woken
  next notIdle =>
    refine ⟨notIdle, ?_⟩
    split at woken
    next blocked =>
      obtain ⟨removed, removes, hi⟩ := bind_ok.mp woken
      obtain ⟨hm, rfl⟩ := removeFromBlockedList_ok removes
      exact Or.inl ⟨blocked, hm, hi⟩
    next notBlocked => exact Or.inr ⟨notBlocked, (Except.ok.inj woken).symm⟩

/-- Resuming moves a blocked, suspended or started thread to the ready threads, leaves any
other thread alone, and then compares priorities.
-/
theorem resumeThread_ok (resumed : kernel.resumeThread thread = .ok kernel')
    : ∃ moved,
        kernel' = moved.requestIfHigher thread
        ∧ ((kernel.state thread = .blocked ∧ thread ∈ kernel.blockedList
            ∧ (((kernel.setResumeEvent thread).leaveSleepQueue (.thread thread)).unblocked
              thread).insertToReadyQueue thread = .ok moved)
          ∨ (kernel.state thread = .suspended ∧ thread ∈ kernel.suspendedList
            ∧ ((kernel.setResumeEvent thread).unsuspended thread).insertToReadyQueue thread
              = .ok moved)
          ∨ (kernel.state thread = .started ∧ kernel.insertToReadyQueue thread = .ok moved)
          ∨ ((kernel.state thread = .ready ∨ kernel.state thread = .running
              ∨ kernel.state thread = .created)
            ∧ moved = kernel)) := by
  obtain ⟨moved, moves, returned⟩ := bind_ok.mp resumed
  refine ⟨moved, (Except.ok.inj returned).symm, ?_⟩
  unfold moveToReady at moves
  split at moves
  next ready => exact .inr (.inr (.inr ⟨.inl ready, (Except.ok.inj moves).symm⟩))
  next running =>
    exact .inr (.inr (.inr ⟨.inr (.inl running), (Except.ok.inj moves).symm⟩))
  next blocked =>
    obtain ⟨removed, removes, hi⟩ := bind_ok.mp moves
    obtain ⟨hm, rfl⟩ := removeFromBlockedList_ok removes
    rw [leaveSleepQueue_eq] at hm
    exact .inl ⟨blocked, hm, hi⟩
  next suspended =>
    obtain ⟨removed, removes, hi⟩ := bind_ok.mp moves
    obtain ⟨hm, rfl⟩ := removeFromSuspendedList_ok removes
    exact .inr (.inl ⟨suspended, hm, hi⟩)
  next created =>
    exact .inr (.inr (.inr ⟨.inr (.inr created), (Except.ok.inj moves).symm⟩))
  next started => exact .inr (.inr (.inl ⟨started, moves⟩))

/-- The sleep of a suspendable ends at `now`: its deadline has passed, or it has none. -/
def isDue (kernel : Kernel) (now : Instant) (suspendable : Suspendable) : Bool :=
  match kernel.deadline suspendable with
  | some wakeupTime => !decide (now < wakeupTime)
  | none => true

/-- The sleepers up to the first one that is not due. -/
def dueSleepers (kernel : Kernel) (now : Instant) : List Suspendable :=
  kernel.sleepQueue.takeWhile (kernel.isDue now)

/-- A round either stops, with nothing due, or wakes a due head. -/
theorem wakeDue_ok {fuel rounds : Nat} {now : Instant}
    (woken : wakeDue fuel now (rounds + 1) kernel = .ok kernel')
    : (kernel.dueSleepers now = [] ∧ ∃ alarm, kernel' = { kernel with alarm := alarm })
      ∨ ∃ head rest middle,
          kernel.sleepQueue = head :: rest ∧ kernel.isDue now head = true
          ∧ { kernel with sleepQueue := rest }.wakeupSuspendable fuel head = .ok middle
          ∧ wakeDue fuel now rounds middle = .ok kernel' := by
  unfold wakeDue at woken
  split at woken
  next empty =>
    exact Or.inl ⟨by simp [dueSleepers, empty], none, (Except.ok.inj woken).symm⟩
  next head rest hq =>
    dsimp only at woken
    split at woken
    next wakeupTime dated =>
      split at woken
      next early =>
        refine Or.inl ⟨?_, some wakeupTime, (Except.ok.inj woken).symm⟩
        simp [dueSleepers, hq, isDue, dated, early]
      next late =>
        obtain ⟨middle, wakes, later⟩ := bind_ok.mp woken
        exact Or.inr ⟨head, rest, middle, hq, by simpa [isDue, dated] using late, wakes,
          later⟩
    next undated =>
      obtain ⟨middle, wakes, later⟩ := bind_ok.mp woken
      exact Or.inr ⟨head, rest, middle, hq, by simp [isDue, undated], wakes, later⟩

/-- A property every wake-up of the sleep queue's head preserves holds after the wake-up
loop. Witness: induction on the rounds.
-/
theorem wakeDue_induction (holds : Kernel → Prop) {fuel rounds : Nat} {now : Instant}
    (alarmed : ∀ kernel alarm, holds kernel → holds { kernel with alarm := alarm })
    (wakes
      : ∀ kernel head rest after,
          holds kernel
          → kernel.sleepQueue = head :: rest
          → { kernel with sleepQueue := rest }.wakeupSuspendable fuel head = .ok after
          → holds after)
    (initial : holds kernel) (woken : wakeDue fuel now rounds kernel = .ok kernel')
    : holds kernel' := by
  induction rounds generalizing kernel with
  | zero => cases woken
  | succ rounds ih =>
      rcases wakeDue_ok woken with
        ⟨-, alarm, rfl⟩ | ⟨head, rest, middle, hq, -, woke, later⟩
      · exact alarmed kernel alarm initial
      · exact ih (wakes kernel head rest middle initial hq woke) later

/-- The choice at the end of a reschedule: the current thread goes on, or the first ready
thread replaces it. A current thread in the ready queue, which no consistent kernel has, is
only taken off it.
-/
theorem switchToNext_ok {kind : Nat} (switched : kernel.switchToNext kind = .ok kernel')
    : ((∀ head ∈ kernel.readyQueue.head?, kernel.mayReplaceCurrent kind head = false)
        ∧ kernel' = kernel)
      ∨ ∃ head rest,
          kernel.readyQueue = head :: rest ∧ kernel.mayReplaceCurrent kind head = true
          ∧ ((head ≠ kernel.currentThread
              ∧ ({ kernel with readyQueue := rest }.switchThread head).2.insertToReadyQueue
                kernel.currentThread = .ok kernel')
            ∨ (head = kernel.currentThread ∧ kernel' = { kernel with readyQueue := rest })) := by
  unfold switchToNext at switched
  split at switched
  · cases switched
  · rcases kernel.popReadyIf_cases (kernel.mayReplaceCurrent kind) with
      ⟨head, rest, hq, accepted, popped⟩ | ⟨refused, popped⟩
    · refine Or.inr ⟨head, rest, hq, accepted, ?_⟩
      simp only [popped, Option.getD_some] at switched
      split at switched
      next hne => exact Or.inl ⟨hne, switched⟩
      next he => exact Or.inr ⟨not_ne_iff.mp he, (Except.ok.inj switched).symm⟩
    · refine Or.inl ⟨refused, ?_⟩
      simp only [popped, Option.getD_none, ne_eq, not_true_eq_false, if_false] at switched
      exact (Except.ok.inj switched).symm

/-- A notification takes a waiter off its queue and, if it is a thread, resumes it. -/
theorem notifyNext_ok (notified : kernel.notifyNext queue = .ok kernel')
    : ∃ waitQueue waitOwner,
        kernel' = { kernel with waitQueue := waitQueue, waitOwner := waitOwner }
        ∨ ∃ thread,
            { kernel with waitQueue := waitQueue, waitOwner := waitOwner }.resumeThread thread
              = .ok kernel' := by
  unfold notifyNext popWaiter at notified
  split at notified
  next taken =>
    split at taken
    · cases taken
      exact ⟨_, _, Or.inl (Except.ok.inj notified).symm⟩
    · cases taken
  next waiter _ taken =>
    split at taken
    · cases taken
    · cases taken
      cases waiter with
      | thread thread => exact ⟨_, _, Or.inr ⟨thread, notified⟩⟩
      | interrupt handler => exact ⟨_, _, Or.inl (Except.ok.inj notified).symm⟩

/-- Sending events stores them and resumes the thread if they complete its request. -/
theorem sendEvents_ok {events : Events} (sent : kernel.sendEvents thread events = .ok kernel')
    : ∃ stored,
        kernel' = { kernel with events := stored }
        ∨ { kernel with events := stored }.resumeThread thread = .ok kernel' := by
  unfold sendEvents at sent
  dsimp only at sent
  split at sent
  · exact ⟨_, Or.inr sent⟩
  · exact ⟨_, Or.inl (Except.ok.inj sent).symm⟩

/-- Pushing a poll changes the queue of polls only. -/
theorem pushExecutorPoll_ok (pushed : kernel.pushExecutorPoll fuel handler = .ok kernel')
    : ∃ polls, kernel' = { kernel with polls := polls } := by
  unfold pushExecutorPoll at pushed
  split at pushed
  · exact ⟨_, (Except.ok.inj pushed).symm⟩
  · cases pushed

theorem setPendingExecutorPoll_ok
    (pushed : kernel.setPendingExecutorPoll fuel handler = .ok kernel')
    : ∃ polls, kernel' = { kernel with polls := polls } := by
  unfold setPendingExecutorPoll at pushed
  split at pushed
  · exact ⟨_, (Except.ok.inj pushed).symm⟩
  · exact pushExecutorPoll_ok pushed

theorem resumeInterrupt_ok (resumed : kernel.resumeInterrupt fuel handler = .ok kernel')
    : ∃ polls,
        kernel' = { kernel with
          sleepQueue := kernel.sleepQueue.erase (.interrupt handler), polls := polls } := by
  unfold resumeInterrupt at resumed
  rw [leaveSleepQueue_eq] at resumed
  exact setPendingExecutorPoll_ok resumed

/-- An interrupt handler's sleep is filed anew under its deadline. -/
theorem scheduleInterruptWakeup_ok
    (scheduled : kernel.scheduleInterruptWakeup handler = .ok kernel')
    : .interrupt handler ∉ kernel.sleepQueue.erase (.interrupt handler)
      ∧ ∃ alarm,
          kernel' = { ({ kernel with
              sleepQueue := kernel.sleepQueue.erase (.interrupt handler) }.withSleeper
                (.interrupt handler)) with alarm := alarm } := by
  obtain ⟨asleep, hi, returned⟩ := bind_ok.mp scheduled
  rw [leaveSleepQueue_eq] at hi
  obtain ⟨absent, rfl⟩ := insertToSleepQueue_ok hi
  refine ⟨absent, ?_⟩
  cases returned
  unfold reprogramAlarm
  split <;> exact ⟨_, rfl⟩

end Scars.Kernel
