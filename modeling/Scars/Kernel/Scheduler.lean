import Scars.Kernel.State

/-! `RawScheduler`: the moves between the execution lists and the operations made of them.
Every definition is a method of the source, executed with the preemption lock held. A fault
ends the execution.
-/

namespace Scars

def RESCHEDULE_KIND_NONE : Nat := 0
def RESCHEDULE_KIND_YIELD_TO_HIGHER : Nat := 1
def RESCHEDULE_KIND_YIELD_TO_EQUAL : Nat := 2

namespace Kernel

/-- The test of `insert_to_ready_queue`: a thread without locks goes behind its equals, a
thread that holds a lock in front of them.
-/
def goesBeforeReady (kernel : Kernel) (thread queueThread : ThreadId) : Bool :=
  if (kernel.lockPriority thread).isValid then
    decide (kernel.priority thread < kernel.priority queueThread)
  else
    decide (kernel.priority thread ≤ kernel.priority queueThread)

def insertToReadyQueue (thread : ThreadId) (kernel : Kernel) : Except Fault Kernel :=
  let kernel := kernel.setState thread .ready
  if thread = IDLE_THREAD_ID then
    -- the idle thread is always ready, but it is never inserted
    .ok kernel
  else if kernel.inExecList thread then
    .error .alreadyInList
  else
    .ok { kernel with
      readyQueue :=
        OrderedInsert.insertPast (kernel.goesBeforeReady thread) thread kernel.readyQueue }

/-- The test of `insert_to_blocked_queue`. -/
def goesBeforeBlocked (kernel : Kernel) (thread queueThread : ThreadId) : Bool :=
  let threadPriority := kernel.lockPriority thread
  let queueThreadPriority := kernel.lockPriority queueThread
  if queueThreadPriority.isValid && threadPriority.isValid then
    queueThreadPriority.ge threadPriority
  else if queueThreadPriority.isValid then
    true
  else if threadPriority.isValid then
    false
  else
    false

def insertToBlockedQueue (thread : ThreadId) (kernel : Kernel) : Except Fault Kernel :=
  let kernel := kernel.setState thread .blocked
  if thread = IDLE_THREAD_ID then
    .error .idleMayNotBlock
  else if kernel.inExecList thread then
    .error .alreadyInList
  else
    .ok { kernel with
      blockedList :=
        OrderedInsert.insertPast (kernel.goesBeforeBlocked thread) thread kernel.blockedList }

def insertToSuspendedList (thread : ThreadId) (kernel : Kernel) : Except Fault Kernel :=
  let kernel := kernel.setState thread .suspended
  if thread = IDLE_THREAD_ID then
    .error .idleMayNotSuspend
  else if kernel.inExecList thread then
    .error .alreadyInList
  else
    .ok { kernel with suspendedList := kernel.suspendedList ++ [thread] }

/-- `Option<Instant>` in the derived order: `None` is below every deadline. -/
def deadlineLe : Option Instant → Option Instant → Bool
  | none, _ => true
  | some _, none => false
  | some left, some right => decide (left ≤ right)

/-- The insertion into the sleep queue that threads and interrupt handlers share. -/
def insertToSleepQueue (suspendable : Suspendable) (kernel : Kernel) : Except Fault Kernel :=
  if kernel.inSleepQueue suspendable then
    .error .alreadyInList
  else
    let deadline := kernel.deadline suspendable
    .ok { kernel with
      sleepQueue :=
        OrderedInsert.insertPast (fun queued => deadlineLe (kernel.deadline queued) deadline)
          suspendable kernel.sleepQueue }

def insertToWakeupQueue (thread : ThreadId) (kernel : Kernel) : Except Fault Kernel :=
  let kernel := kernel.setState thread .blocked
  if thread = IDLE_THREAD_ID then
    .error .idleMayNotBlock
  else
    kernel.insertToSleepQueue (.thread thread)

/-- `LinkedList::remove` on the ready queue. -/
def removeFromReadyQueue (thread : ThreadId) (kernel : Kernel) : Except Fault Kernel :=
  if kernel.readyQueue.contains thread then
    .ok { kernel with readyQueue := kernel.readyQueue.erase thread }
  else
    .error .notInList

def removeFromBlockedList (thread : ThreadId) (kernel : Kernel) : Except Fault Kernel :=
  if kernel.blockedList.contains thread then
    .ok { kernel with blockedList := kernel.blockedList.erase thread }
  else
    .error .notInList

def removeFromSuspendedList (thread : ThreadId) (kernel : Kernel) : Except Fault Kernel :=
  if kernel.suspendedList.contains thread then
    .ok { kernel with suspendedList := kernel.suspendedList.erase thread }
  else
    .error .notInList

/-- Removes a suspendable from the sleep queue if it is there. -/
def leaveSleepQueue (suspendable : Suspendable) (kernel : Kernel) : Kernel :=
  if kernel.inSleepQueue suspendable then
    { kernel with sleepQueue := kernel.sleepQueue.erase suspendable }
  else
    kernel

/-- `ready_queue.pop_front_if`. -/
def popReadyIf (accepts : ThreadId → Bool) (kernel : Kernel) : Option ThreadId × Kernel :=
  match kernel.readyQueue with
  | [] => (none, kernel)
  | head :: rest =>
      if accepts head then (some head, { kernel with readyQueue := rest }) else (none, kernel)

/-- `RawScheduler::switch_thread`, with the previous thread it returns. -/
def switchThread (new : ThreadId) (kernel : Kernel) : ThreadId × Kernel :=
  let kernel := kernel.setState new .running
  let old := kernel.currentThread
  (old, { kernel with currentThread := new }.setState old .ready)

/-- `RawScheduler::reprogram_alarm`. -/
def reprogramAlarm (kernel : Kernel) : Kernel :=
  match kernel.sleepQueue with
  | [] => { kernel with alarm := none }
  | head :: _ => { kernel with alarm := kernel.deadline head }

/-- `RawScheduler::locks_priority_ceiling`. -/
def locksPriorityCeiling (kernel : Kernel) : PriorityStatus :=
  match kernel.blockedList with
  | [] => kernel.lockPriority kernel.currentThread
  | head :: _ => (kernel.lockPriority head).max (kernel.lockPriority kernel.currentThread)

/-- The choice a blocking or suspended thread makes: the first ready thread above the lock
ceiling, or the idle thread.
-/
def takeNextAboveLocks (kernel : Kernel) : ThreadId × Kernel :=
  let locksCeiling := kernel.locksPriorityCeiling.unwrapOrDefault Priority.MIN
  let (next, kernel) := kernel.popReadyIf fun ready => decide (locksCeiling < kernel.priority ready)
  (next.getD IDLE_THREAD_ID, kernel)

/-- The current thread stops running and the next thread above the locks takes over. The
previous thread is returned and belongs to no list yet.
-/
def handOver (kernel : Kernel) : ThreadId × Kernel :=
  let (next, kernel) := kernel.takeNextAboveLocks
  kernel.switchThread next

def setWakeupEvent (thread : ThreadId) (kernel : Kernel) : Kernel :=
  kernel.setEvents thread (kernel.events thread).setWakeupEvent

def setResumeEvent (thread : ThreadId) (kernel : Kernel) : Kernel :=
  kernel.setEvents thread (kernel.events thread).setResumeEvent

/-- `RawScheduler::wakeup_thread`, called for a thread that just left the sleep queue. -/
def wakeupThread (thread : ThreadId) (kernel : Kernel) : Except Fault Kernel :=
  if thread = IDLE_THREAD_ID then
    .error .idleMayNotBeWokenUp
  else
    match kernel.state thread with
    | .blocked => do
        let kernel ← (kernel.setWakeupEvent thread).removeFromBlockedList thread
        kernel.insertToReadyQueue thread
    | _ => .ok kernel

/-- The `push_back` of `set_pending_executor_poll`. -/
def pushExecutorPoll (fuel : Nat) (handler : HandlerId) (kernel : Kernel)
    : Except Fault Kernel :=
  match kernel.polls.pushBack fuel () handler with
  | .ok polls => .ok { kernel with polls := polls }
  | .error fault => .error (.queue fault)

/-- `RawInterruptHandler::set_pending_executor_poll`, when nothing comes in between. -/
def setPendingExecutorPoll (fuel : Nat) (handler : HandlerId) (kernel : Kernel)
    : Except Fault Kernel :=
  if kernel.polls.isLinked handler then .ok kernel else kernel.pushExecutorPoll fuel handler

/-- `RawScheduler::wakeup_suspendable`, with `wakeup_interrupt`. -/
def wakeupSuspendable (fuel : Nat) (suspendable : Suspendable) (kernel : Kernel)
    : Except Fault Kernel :=
  match suspendable with
  | .thread thread => kernel.wakeupThread thread
  | .interrupt handler => kernel.setPendingExecutorPoll fuel handler

/-- The check at the end of `resume_thread`. -/
def requestIfHigher (thread : ThreadId) (kernel : Kernel) : Kernel :=
  let currentPriority := kernel.priority kernel.currentThread
  let minPriority := currentPriority.maxValid kernel.locksPriorityCeiling
  if minPriority < kernel.priority thread then
    kernel.setPendingReschedule RESCHEDULE_KIND_YIELD_TO_HIGHER
  else
    kernel

/-- The match of `resume_thread` on the thread's state. -/
def moveToReady (thread : ThreadId) (kernel : Kernel) : Except Fault Kernel :=
  match kernel.state thread with
  | .ready => .ok kernel
  | .running => .ok kernel
  | .blocked => do
      let kernel := (kernel.setResumeEvent thread).leaveSleepQueue (.thread thread)
      let kernel ← kernel.removeFromBlockedList thread
      kernel.insertToReadyQueue thread
  | .suspended => do
      let kernel ← (kernel.setResumeEvent thread).removeFromSuspendedList thread
      kernel.insertToReadyQueue thread
  | .created => .ok kernel
  | .started => kernel.insertToReadyQueue thread

/-- `RawScheduler::resume_thread`. -/
def resumeThread (thread : ThreadId) (kernel : Kernel) : Except Fault Kernel := do
  let kernel ← kernel.moveToReady thread
  return kernel.requestIfHigher thread

/-- `RawScheduler::schedule_interrupt_wakeup`. -/
def scheduleInterruptWakeup (handler : HandlerId) (kernel : Kernel) : Except Fault Kernel := do
  let kernel := kernel.leaveSleepQueue (.interrupt handler)
  let kernel ← kernel.insertToSleepQueue (.interrupt handler)
  return kernel.reprogramAlarm

/-- `RawScheduler::resume_interrupt`. -/
def resumeInterrupt (fuel : Nat) (handler : HandlerId) (kernel : Kernel)
    : Except Fault Kernel :=
  (kernel.leaveSleepQueue (.interrupt handler)).setPendingExecutorPoll fuel handler

/-- `RawScheduler::resume_suspendable_now`. -/
def resumeSuspendableNow (fuel : Nat) (suspendable : Suspendable) (kernel : Kernel)
    : Except Fault Kernel :=
  match suspendable with
  | .thread thread => kernel.resumeThread thread
  | .interrupt handler => kernel.resumeInterrupt fuel handler

/-- `RawScheduler::suspend_suspendable_now`. -/
def suspendSuspendableNow (suspendable : Suspendable) (kernel : Kernel)
    : Except Fault Kernel :=
  match suspendable with
  | .thread _ => .error .unimplemented
  | .interrupt handler => do
      let kernel ← kernel.scheduleInterruptWakeup handler
      return kernel.reprogramAlarm

/-- `RawScheduler::block_thread`. -/
def blockThread (thread : ThreadId) (timeout : Option Instant) (kernel : Kernel)
    : Except Fault Kernel :=
  match timeout with
  | some deadline => do
      let kernel := kernel.setDeadline (.thread thread) (some deadline)
      let kernel ← kernel.insertToWakeupQueue thread
      kernel.reprogramAlarm.insertToBlockedQueue thread
  | none => (kernel.setDeadline (.thread thread) none).insertToBlockedQueue thread

/-- `RawScheduler::suspend_thread`; no thread means the current one. -/
def suspendThread (maybeThread : Option ThreadId) (kernel : Kernel) : Except Fault Kernel :=
  let thread := maybeThread.getD kernel.currentThread
  match kernel.state thread with
  | .ready => do
      let kernel ← kernel.removeFromReadyQueue thread
      kernel.insertToSuspendedList thread
  | .running =>
      let (previous, kernel) := kernel.handOver
      kernel.insertToSuspendedList previous
  | .blocked => kernel.insertToSuspendedList thread
  | .suspended => .ok kernel
  | .created => .error .notStarted
  | .started => kernel.insertToSuspendedList thread

/-- The loop of `reschedule` that wakes due sleepers and then programs the alarm. Each
round shortens the sleep queue, so `rounds` bounds it by the queue's length.
-/
def wakeDue (fuel : Nat) (now : Instant) : Nat → Kernel → Except Fault Kernel
  | 0, _ => .error .diverges
  | rounds + 1, kernel =>
      match kernel.sleepQueue with
      | [] => .ok { kernel with alarm := none }
      | head :: rest =>
          let wake := do
            let kernel ← { kernel with sleepQueue := rest }.wakeupSuspendable fuel head
            wakeDue fuel now rounds kernel
          match kernel.deadline head with
          | some wakeupTime =>
              if now < wakeupTime then
                .ok { kernel with alarm := some wakeupTime }
              else
                wake
          | none => wake

/-- The thread a reschedule of this kind would switch to: it must be at least as urgent as
the current one when yielding to equals, and more urgent otherwise.
-/
def mayReplaceCurrent (kernel : Kernel) (kind : Nat) (ready : ThreadId) : Bool :=
  let currentPriority := kernel.priority kernel.currentThread
  if kind &&& RESCHEDULE_KIND_YIELD_TO_EQUAL ≠ 0 then
    decide (currentPriority ≤ kernel.priority ready)
  else
    decide (currentPriority < kernel.priority ready)

/-- The second half of `reschedule`, once the due sleepers are awake. -/
def switchToNext (kind : Nat) (kernel : Kernel) : Except Fault Kernel :=
  if kind &&& RESCHEDULE_KIND_YIELD_TO_EQUAL = 0
      ∧ kind &&& RESCHEDULE_KIND_YIELD_TO_HIGHER = 0 then
    .error .unreachable
  else
    let (next, kernel) := kernel.popReadyIf (kernel.mayReplaceCurrent kind)
    let next := next.getD kernel.currentThread
    if next ≠ kernel.currentThread then
      let (previous, kernel) := kernel.switchThread next
      kernel.insertToReadyQueue previous
    else
      .ok kernel

/-- `RawScheduler::reschedule` at clock value `now`. -/
def reschedule (fuel : Nat) (kind : Nat) (now : Instant) (kernel : Kernel)
    : Except Fault Kernel := do
  let kernel ← wakeDue fuel now (kernel.sleepQueue.length + 1) kernel
  kernel.switchToNext kind

/-- `Scheduler::execute_pending_reschedule` when the preemption lock is free. -/
def executePendingReschedule (fuel : Nat) (now : Instant) (kernel : Kernel)
    : Except Fault Kernel :=
  let kind := kernel.pendingRescheduleKind
  let kernel := { kernel with pendingRescheduleKind := RESCHEDULE_KIND_NONE }
  if kind = RESCHEDULE_KIND_NONE then .ok kernel else kernel.reschedule fuel kind now

/-- `Scheduler::cond_reschedule`. -/
def condReschedule (kernel : Kernel) : Kernel :=
  match kernel.readyQueue with
  | [] => kernel
  | head :: _ =>
      if kernel.priority kernel.currentThread < kernel.priority head then
        kernel.setPendingReschedule RESCHEDULE_KIND_YIELD_TO_HIGHER
      else
        kernel

/-- `RawScheduler::delay_thread_until`. -/
def delayThreadUntil (wakeupTime : Instant) (kernel : Kernel) : Except Fault Kernel :=
  if kernel.currentThread = IDLE_THREAD_ID then
    .error .idleCannotBlock
  else
    let (previous, kernel) := kernel.handOver
    kernel.blockThread previous (some wakeupTime)

/-- The insertion into a wait queue, behind the waiters of at least the same base priority. -/
def insertToWaitQueue (queue : WaitQueueId) (suspendable : Suspendable) (kernel : Kernel)
    : Except Fault Kernel :=
  if (kernel.waitOwner suspendable).isSome then
    .error .alreadyInList
  else
    let threadPriority := kernel.suspendablePriority suspendable
    .ok { kernel with
      waitQueue :=
        Function.update kernel.waitQueue queue
          (OrderedInsert.insertPast
            (fun waiter => decide (threadPriority ≤ kernel.suspendablePriority waiter))
            suspendable (kernel.waitQueue queue))
      waitOwner := Function.update kernel.waitOwner suspendable (some queue) }

/-- `set_ceiling_threshold`. -/
def setCeilingThreshold (ceiling : PriorityStatus) (kernel : Kernel) : Kernel :=
  match ceiling with
  | .interrupt level => { kernel with interruptThreshold := level }
  | .thread _ => { kernel with interruptThreshold := 0 }
  | .invalid => { kernel with interruptThreshold := 0 }

def setHandlerPriorities (handler : HandlerId) (priorities : PriorityStatus × PriorityStatus)
    (kernel : Kernel)
    : Kernel :=
  { kernel with
    handler := Function.update kernel.handler handler
      { kernel.handler handler with lockPriorities := priorities } }
    |>.setCeilingThreshold (priorities.1.max priorities.2)

/-- `RawInterruptHandler::raise_nesting_lock_priority`, with the saved value. -/
def raiseHandlerNesting (handler : HandlerId) (newPriority : Priority) (kernel : Kernel)
    : PriorityStatus × Kernel :=
  let raised := newPriority.max (kernel.handler handler).basePriority
  let (nesting, owned) := (kernel.handler handler).lockPriorities
  (nesting, kernel.setHandlerPriorities handler (nesting.max (.valid raised), owned))

/-- `RawInterruptHandler::set_nesting_lock_priority`. -/
def setHandlerNesting (handler : HandlerId) (newPriority : PriorityStatus) (kernel : Kernel)
    : Kernel :=
  let (_, owned) := (kernel.handler handler).lockPriorities
  kernel.setHandlerPriorities handler (newPriority, owned)

/-- `RawScheduler::wait_current_thread`, called in the syscall handler. -/
def waitCurrentThread (queue : WaitQueueId) (ceiling : Priority) (kernel : Kernel)
    : Except Fault Kernel :=
  if kernel.currentThread = IDLE_THREAD_ID then
    .error .idleCannotBlock
  else do
    let (blocked, kernel) := kernel.handOver
    let (saved, kernel) := kernel.raiseHandlerNesting SYSCALL_INTERRUPT_HANDLER ceiling
    let kernel ← kernel.insertToWaitQueue queue (.thread blocked)
    let kernel := kernel.setHandlerNesting SYSCALL_INTERRUPT_HANDLER saved
    kernel.blockThread blocked none

/-- `set_waited_events` for the current thread, the first access of
`wait_current_thread_event`.
-/
def setWaitedEvents (events : Events) (kernel : Kernel) : Kernel :=
  kernel.setEvents kernel.currentThread
    ((kernel.events kernel.currentThread).setWaitedEvents events)

/-- The read-and-clear access of `wait_current_thread_event`. -/
def consumeEvents (events : Events) (kernel : Kernel) : Events × Kernel :=
  let (received, set) :=
    (kernel.events kernel.currentThread).readAndClearMatchingSentEvents events.withoutFlag
  (received, kernel.setEvents kernel.currentThread set)

/-- The test of `wait_current_thread_event` on the events read. -/
def mustBlock (events received : Events) : Bool :=
  (!events.requireAll && received == 0)
    || received &&& events.withoutFlag != events.withoutFlag

/-- The last part of `wait_current_thread_event`. -/
def blockUnlessReceived (events : Events) (deadline : Option Instant) (received : Events)
    (kernel : Kernel)
    : Except Fault Kernel :=
  if mustBlock events received then
    let (blocked, kernel) := kernel.handOver
    kernel.blockThread blocked deadline
  else
    .ok kernel

/-- `RawScheduler::wait_current_thread_event`, with the events received before blocking. -/
def waitCurrentThreadEvent (events : Events) (deadline : Option Instant) (kernel : Kernel)
    : Except Fault (Events × Kernel) :=
  if kernel.currentThread = IDLE_THREAD_ID then
    .error .idleCannotBlock
  else do
    let (received, kernel) := (kernel.setWaitedEvents events).consumeEvents events
    let kernel ← kernel.blockUnlessReceived events deadline received
    return (received, kernel)

end Kernel

end Scars
