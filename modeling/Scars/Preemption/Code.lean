import Scars.Preemption.Pending

/-! Threads, system calls and nested interrupt handlers as interleaved code.
A context runs a list of instructions; each is one access to shared memory, or one operation
that nobody can observe half done because the preemption lock is held. An interrupt may be
taken between any two of them.
-/

namespace Scars

/-- The methods of `RawScheduler` and `RawThread` that run in a section of `PreemptLock`. -/
inductive SectionOp where
  | resumeThread (thread : ThreadId)
  | scheduleInterruptWakeup (handler : HandlerId)
  | reschedule (kind : Nat)
  | delayThreadUntil (wakeupTime : Instant)
  | suspendThread (maybeThread : Option ThreadId)
  | waitCurrentThread (queue : WaitQueueId) (ceiling : Priority)
  | acquireScopedLock (lock : LockId)
  | releaseScopedLock (lock : LockId)
  | condReschedule
  deriving DecidableEq, Repr

/-- What is passed to `PreemptLock::with` or `PreemptLock::try_with`. -/
inductive Section where
  | op (op : SectionOp)
  /-- `wait_current_thread_event`, whose accesses to the masks race with senders. -/
  | waitCurrentThreadEvent (events : Events) (deadline : Option Instant)
  /-- A closure of the user, for `with` or for `try_with`. -/
  | closure (mayBlock : Bool)
  deriving DecidableEq, Repr

/-- An access to shared memory outside the preemption lock. -/
inductive Access where
  /-- The `fetch_or` of `send_events`. -/
  | sendEvents (thread : ThreadId) (events : Events)
  /-- The load of the waited mask in `send_events`, and the decision to resume. -/
  | checkWaitedEvents (thread : ThreadId) (sentEvents : Events)
  /-- `pop_front` of `notify_one`, or of the loop of `notify_all`. -/
  | popWaiter (queue : WaitQueueId) (all : Bool)
  /-- `set_deadline` of `schedule_interrupt_wakeup`. -/
  | setDeadline (handler : HandlerId) (wakeupTime : Instant)
  | setPendingReschedule (kind : Nat)
  /-- The check of `set_pending_executor_poll`. -/
  | setPendingExecutorPoll (handler : HandlerId)
  /-- Its `push_back`. -/
  | pushExecutorPoll (handler : HandlerId)
  /-- `set_nesting_lock_priority` of a handler, after its executor was polled. -/
  | setHandlerNesting (handler : HandlerId) (saved : PriorityStatus)
  /-- The check and the store of `RawThread::start`. -/
  | markStarted (thread : ThreadId)
  /-- The load of the owner in `release_scoped_lock_in_thread`. -/
  | loadOwner (lock : LockId)
  | enterSection (ceiling : Priority)
  | closeSection
  /-- `waited_events_mask.store(0)` after the system call. -/
  | clearWaitedEvents
  /-- The last `fetch_and` of `wait_events` or `wait_events_until`, and the return. -/
  | collectEvents (events : Events) (timed : Bool)
  /-- The load of `try_wait_events`, and its decision. -/
  | tryWaitEvents (events : Events)
  deriving DecidableEq, Repr

/-- A step inside a section, while the preemption lock is held. -/
inductive Locked where
  /-- A method, or its first step. -/
  | run (op : SectionOp)
  /-- The body of a loop of `complete_pending`. -/
  | complete (queue : PendingQueue) (suspendable : Suspendable)
  -- `wait_current_thread`, after the switch
  | raisePriority (waiter : ThreadId) (queue : WaitQueueId) (ceiling : Priority)
  | insertWaiter (waiter : ThreadId) (queue : WaitQueueId) (saved : PriorityStatus)
  | restorePriority (waiter : ThreadId) (saved : PriorityStatus)
  | blockWaiter (waiter : ThreadId)
  -- `schedule_interrupt_wakeup`, after the removal
  | readDeadline (handler : HandlerId)
  | insertSleeper (handler : HandlerId) (deadline : Option Instant)
  /-- The end of `suspend_suspendable_now`. -/
  | reprogramAlarm
  -- `wait_current_thread_event`
  | setWaitedEvents (events : Events)
  | consumeEvents (events : Events)
  | blockUnlessReceived (events : Events) (deadline : Option Instant)
  deriving DecidableEq, Repr

inductive Syscall where
  | yield
  | wait (queue : WaitQueueId) (ceiling : Priority)
  | waitEvent (events : Events) (deadline : Option Instant)
  | delayUntil (time : Instant)
  | startThread (thread : ThreadId)
  | suspend (maybeThread : Option ThreadId)
  | pollInterruptExecutor (handler : HandlerId)
  deriving DecidableEq, Repr

/-- `PreemptLockRestoreState`: the kind of context that acquired the lock, and the value that
it found.
-/
structure RestoreState where
  isInterrupt : Bool
  previous : Option ExecutionContext
  deriving DecidableEq, Repr

inductive Instr where
  /-- User code, which makes calls until it ends. -/
  | user
  | access (access : Access)
  | tryWith (body : Section)
  /-- `borrow_mut` of the scheduler. -/
  | borrowMut
  | locked (op : Locked)
  /-- `pop_front` of a loop of `complete_pending`. -/
  | drain (queue : PendingQueue)
  | dropBorrow
  /-- `release_nesting_lock`. -/
  | release (restoreState : RestoreState)
  /-- `PREEMPT_LOCK.store(null)`. -/
  | unlock (isInterrupt : Bool)
  /-- `is_reschedule_pending` in `release_nesting_lock`. -/
  | checkPending
  /-- `thread_yield` in `release_nesting_lock`. -/
  | yieldPending
  | syscall (call : Syscall)
  /-- The return of `thread_wait`. -/
  | endWait (queue : WaitQueueId)
  | pollExecutor (handler : HandlerId)
  /-- The loop over `PENDING_INTERRUPT_EXECUTOR_POLLS` in `interrupt_context`. -/
  | pollPending
  /-- The `swap` of `execute_pending_reschedule`. -/
  | swapPending
  /-- The test whether to poll again. -/
  | checkPolls
  deriving DecidableEq, Repr

/-- The body of a section. -/
def Section.code : Section → List Instr
  | .op (.acquireScopedLock lock) => [.locked (.run (.acquireScopedLock lock))]
  | .op method => [.borrowMut, .locked (.run method), .dropBorrow]
  | .waitCurrentThreadEvent events deadline =>
      [.borrowMut, .locked (.setWaitedEvents events), .locked (.consumeEvents events),
        .locked (.blockUnlessReceived events deadline), .dropBorrow]
  | .closure _ => [.user]

/-- Whether the section is entered with `PreemptLock::with`, which no interrupt may do. -/
def Section.mayBlock : Section → Bool
  | .op (.acquireScopedLock _) => true
  | .op (.releaseScopedLock _) => true
  | .op .condReschedule => true
  | .op _ => false
  | .waitCurrentThreadEvent _ _ => false
  | .closure mayBlock => mayBlock

/-- `release_nesting_lock`: only the section that found the lock free completes what is
pending and unlocks.
-/
def releaseNestingLock (restoreState : RestoreState) : List Instr :=
  if restoreState.previous = none then
    [.borrowMut, .drain .resume, .drain .sleep, .dropBorrow, .unlock restoreState.isInterrupt]
  else
    []

/-- The body of the system call handler. -/
def Syscall.code : Syscall → List Instr
  | .yield =>
      [.access (.setPendingReschedule
        (RESCHEDULE_KIND_YIELD_TO_EQUAL ||| RESCHEDULE_KIND_YIELD_TO_HIGHER))]
  | .wait queue ceiling => [.tryWith (.op (.waitCurrentThread queue ceiling))]
  | .waitEvent events deadline => [.tryWith (.waitCurrentThreadEvent events deadline)]
  | .delayUntil time => [.tryWith (.op (.delayThreadUntil time))]
  | .startThread thread => [.tryWith (.op (.resumeThread thread))]
  | .suspend maybeThread => [.tryWith (.op (.suspendThread maybeThread))]
  | .pollInterruptExecutor handler => [.pollExecutor handler]

/-- The end of `interrupt_context` on an otherwise empty interrupt stack. -/
def interruptExit : List Instr := [.pollPending, .swapPending, .checkPolls]

/-- `EventSet::wait_events`, and `wait_events_until` with a deadline. -/
def waitEventsCode (events : Events) (deadline : Option Instant) : List Instr :=
  [.syscall (.waitEvent events deadline), .access .clearWaitedEvents,
    .access (.collectEvents events deadline.isSome)]

/-- `RawThread::resume`, from any context. -/
def resumeCode (thread : ThreadId) : List Instr := [.tryWith (.op (.resumeThread thread))]

/-- The calls of user code in threads and interrupt handlers. -/
inductive Call where
  | resumeThread (thread : ThreadId)
  | sendEvents (thread : ThreadId) (events : Events)
  | notify (queue : WaitQueueId) (all : Bool)
  | scheduleInterruptWakeup (handler : HandlerId) (wakeupTime : Instant)
  | setPendingExecutorPoll (handler : HandlerId)
  /-- `PreemptLock::with` or `PreemptLock::try_with`. -/
  | preemptLock (mayBlock : Bool)
  | lock (lock : LockId)
  | unlock (lock : LockId)
  | enterSection (ceiling : Priority)
  | leaveSection
  | yield
  | delayUntil (time : Instant)
  | start (thread : ThreadId)
  | suspend (maybeThread : Option ThreadId)
  | wait (queue : WaitQueueId) (ceiling : Priority)
  | waitEvents (events : Events)
  | waitEventsUntil (events : Events) (deadline : Instant)
  | tryWaitEvents (events : Events)
  | pollInterruptExecutor (handler : HandlerId)
  /-- `wakeup_scheduler_isr`, the body of the timer interrupt. -/
  | wakeupScheduler
  deriving DecidableEq, Repr

def Call.code : Call → List Instr
  | .resumeThread thread => resumeCode thread
  | .sendEvents thread events => [.access (.sendEvents thread events)]
  | .notify queue all => [.access (.popWaiter queue all)]
  | .scheduleInterruptWakeup handler wakeupTime =>
      [.access (.setDeadline handler wakeupTime),
        .tryWith (.op (.scheduleInterruptWakeup handler))]
  | .setPendingExecutorPoll handler => [.access (.setPendingExecutorPoll handler)]
  | .preemptLock mayBlock => [.tryWith (.closure mayBlock)]
  | .lock ceilingLock => [.tryWith (.op (.acquireScopedLock ceilingLock))]
  | .unlock ceilingLock => [.access (.loadOwner ceilingLock)]
  | .enterSection ceiling => [.access (.enterSection ceiling)]
  | .leaveSection =>
      -- both `set_nesting_lock_priority` and its caller reschedule
      [.access .closeSection, .tryWith (.op .condReschedule), .tryWith (.op .condReschedule)]
  | .yield => [.syscall .yield]
  | .delayUntil time => [.syscall (.delayUntil time)]
  | .start thread => [.access (.markStarted thread), .syscall (.startThread thread)]
  | .suspend maybeThread => [.syscall (.suspend maybeThread)]
  | .wait queue ceiling => [.syscall (.wait queue ceiling), .endWait queue]
  | .waitEvents events => waitEventsCode events none
  | .waitEventsUntil events deadline => waitEventsCode events (some deadline)
  | .tryWaitEvents events => [.access (.tryWaitEvents events)]
  | .pollInterruptExecutor handler => [.syscall (.pollInterruptExecutor handler)]
  | .wakeupScheduler => [.access (.setPendingReschedule RESCHEDULE_KIND_YIELD_TO_HIGHER)]

/-- The calls that interrupt handlers may make too. -/
def Call.inInterrupt : Call → Bool
  | .resumeThread _ => true
  | .sendEvents _ _ => true
  | .notify _ _ => true
  | .scheduleInterruptWakeup _ _ => true
  | .setPendingExecutorPoll _ => true
  | .preemptLock _ => true
  | .wakeupScheduler => true
  | _ => false

/-- The calls of threads. -/
def Call.inThread : Call → Bool
  | .wakeupScheduler => false
  | _ => true

end Scars
