import Scars.Foundation.OrderedInsert
import Scars.Priority
import Scars.EventSet
import Scars.Kernel.AtomicQueue

/-! The state of the scheduler, its threads, locks and wait queues.
An intrusive list is the list of its members. The link that a thread shares between the
three execution lists is taken when the thread is in one of them.
-/

namespace Scars

/-- `thread_id`. -/
abbrev ThreadId := Nat

/-- `IDLE_THREAD_ID`. -/
def IDLE_THREAD_ID : ThreadId := 1

/-- The name of an interrupt handler. -/
abbrev HandlerId := Nat

/-- `SYSCALL_INTERRUPT_HANDLER`, the handler every syscall runs in, at the lowest interrupt
priority.
-/
def SYSCALL_INTERRUPT_HANDLER : HandlerId := 0

abbrev LockId := Nat

abbrev WaitQueueId := Nat

/-- A clock value in ticks; the kernel only compares them. -/
abbrev Instant := Nat

inductive ThreadExecutionState where
  | created
  | started
  | ready
  | running
  | blocked
  | suspended
  deriving DecidableEq, Repr

/-- `Suspendable`, by its owner; the asynchronous kind belongs to the executors. -/
inductive Suspendable where
  | thread (thread : ThreadId)
  | interrupt (handler : HandlerId)
  deriving DecidableEq, Repr

/-- `ExecutionContext`. -/
inductive ExecutionContext where
  | thread (thread : ThreadId)
  | interrupt (handler : HandlerId)
  deriving DecidableEq, Repr

/-- Why an operation does not return. -/
inductive Fault where
  /-- "Cannot acquire a node that is already in a list" -/
  | alreadyInList
  /-- "Cannot release a node that is not in the list" -/
  | notInList
  /-- "Idle thread may not block" -/
  | idleMayNotBlock
  /-- "Idle thread may not suspend" -/
  | idleMayNotSuspend
  /-- "Idle thread may not be woken up" -/
  | idleMayNotBeWokenUp
  /-- "Idle thread cannot block" -/
  | idleCannotBlock
  /-- "Cannot start thread twice" -/
  | startedTwice
  /-- "Cannot suspend a thread that has not been started" -/
  | notStarted
  /-- "Thread cannot acquire ceiling lock in this state" -/
  | cannotAcquire (state : ThreadExecutionState)
  /-- "Lock already owned. The scheduler should have prevented this." -/
  | lockAlreadyOwned
  /-- `RuntimeError::IdleThreadCeilingLock` -/
  | idleThreadCeilingLock
  /-- `RuntimeError::RecursiveLock` -/
  | recursiveLock
  /-- `RuntimeError::CeilingPriorityViolation` -/
  | ceilingPriorityViolation
  /-- `RuntimeError::LockOwnerViolation` -/
  | lockOwnerViolation
  /-- `unreachable!()` -/
  | unreachable
  /-- `unimplemented!()` -/
  | unimplemented
  /-- `unwrap()` of `None` -/
  | unwrapNone
  /-- `assume_init_read` of a slot that holds no value -/
  | uninitialisedRead
  /-- `RuntimeError::InterruptHandlerViolation` -/
  | interruptHandlerViolation
  /-- "Thread is trying to sleep while it holds the preempt lock" -/
  | sleepsWithPreemptLock
  /-- "Cannot suspend a thread while holding the preemption lock" -/
  | suspendsWithPreemptLock
  /-- "already borrowed" -/
  | alreadyBorrowed
  /-- "Task was not ready after block_on" -/
  | notReadyAfterBlockOn
  /-- A loop used up its bound. -/
  | diverges
  /-- An `AtomicQueueError`, or a queue operation that does not return. -/
  | queue (fault : QueueFault)
  /-- The program has no such call to make, such as ending a section it is not in. -/
  | notCallable
  deriving DecidableEq, Repr

/-- An open `CeilingLock::with` section and its `CeilingLockRestoreState`. -/
structure CeilingSection where
  ceiling : Priority
  savedPriority : PriorityStatus
  deriving DecidableEq, Repr

/-- The part of `RawThread` that lock operations work on. The open sections, innermost
first, are the frames of the thread's own stack.
-/
structure RawThread where
  basePriority : Priority
  lockPriorities : PriorityStatus × PriorityStatus := (.invalid, .invalid)
  scopedLocks : List LockId := []
  sections : List CeilingSection := []
  deriving DecidableEq, Repr

structure RawCeilingLock where
  ceilingPriority : Priority
  owner : Option ThreadId := none
  deriving DecidableEq, Repr

structure RawInterruptHandler where
  basePriority : Priority
  lockPriorities : PriorityStatus × PriorityStatus
  deriving DecidableEq, Repr

/-- `Scheduler` and `RawScheduler` with everything they reach. The fields of a thread are
separate maps, so that a scheduling step leaves the lock fields alone.
-/
structure Kernel where
  thread : ThreadId → RawThread
  state : ThreadId → ThreadExecutionState
  events : ThreadId → EventSet
  deadline : Suspendable → Option Instant
  lock : LockId → RawCeilingLock
  readyQueue : List ThreadId
  blockedList : List ThreadId
  suspendedList : List ThreadId
  sleepQueue : List Suspendable
  waitQueue : WaitQueueId → List Suspendable
  /-- The list that a `wait_queue_link` is in. -/
  waitOwner : Suspendable → Option WaitQueueId
  currentThread : ThreadId
  pendingRescheduleKind : Nat
  /-- The last value given to `set_alarm`. -/
  alarm : Option Instant
  /-- The last value given to `set_interrupt_threshold`. -/
  interruptThreshold : UInt8
  handler : HandlerId → RawInterruptHandler
  /-- `PENDING_INTERRUPT_EXECUTOR_POLLS`. -/
  polls : QueueMemory Unit HandlerId

/-- The constants a program declares: priorities of its threads and interrupt handlers and
the ceilings of its locks.
-/
structure Program where
  threadPriority : ThreadId → Priority
  ceilingPriority : LockId → Priority
  interruptPriority : HandlerId → Priority

/-- The kernel after `Scheduler::start`: the idle thread runs and no other thread has been
started.
-/
def Kernel.start (program : Program) : Kernel where
  thread := fun thread => {
    basePriority :=
      if thread = IDLE_THREAD_ID then Priority.MIN else program.threadPriority thread
  }
  state := fun thread => if thread = IDLE_THREAD_ID then .running else .created
  events := fun _ => {}
  deadline := fun _ => none
  lock := fun lock => { ceilingPriority := program.ceilingPriority lock }
  readyQueue := []
  blockedList := []
  suspendedList := []
  sleepQueue := []
  waitQueue := fun _ => []
  waitOwner := fun _ => none
  currentThread := IDLE_THREAD_ID
  pendingRescheduleKind := 0
  alarm := none
  interruptThreshold := 0
  handler := fun handler =>
    let priority :=
      if handler = SYSCALL_INTERRUPT_HANDLER then
        Priority.interrupt 0
      else
        program.interruptPriority handler
    { basePriority := priority, lockPriorities := (.valid priority, .invalid) }
  polls := .new

namespace RawThread

/-- `RawThread::lock_priority`. -/
def lockPriority (thread : RawThread) : PriorityStatus :=
  thread.lockPriorities.1.max thread.lockPriorities.2

/-- `RawThread::priority`, the active priority. -/
def priority (thread : RawThread) : Priority :=
  thread.basePriority.maxValid thread.lockPriority

end RawThread

namespace Kernel

def priority (kernel : Kernel) (thread : ThreadId) : Priority :=
  (kernel.thread thread).priority

def lockPriority (kernel : Kernel) (thread : ThreadId) : PriorityStatus :=
  (kernel.thread thread).lockPriority

/-- `Suspendable::priority`. -/
def suspendablePriority (kernel : Kernel) : Suspendable → Priority
  | .thread thread => (kernel.thread thread).basePriority
  | .interrupt handler => (kernel.handler handler).basePriority

/-- Whether the `exec_queue_link` of a thread is in a list. -/
def inExecList (kernel : Kernel) (thread : ThreadId) : Bool :=
  kernel.readyQueue.contains thread || kernel.blockedList.contains thread
    || kernel.suspendedList.contains thread

/-- `Suspendable::in_sleep_queue`. -/
def inSleepQueue (kernel : Kernel) (suspendable : Suspendable) : Bool :=
  kernel.sleepQueue.contains suspendable

def setState (thread : ThreadId) (state : ThreadExecutionState) (kernel : Kernel)
    : Kernel :=
  { kernel with state := Function.update kernel.state thread state }

def setEvents (thread : ThreadId) (events : EventSet) (kernel : Kernel) : Kernel :=
  { kernel with events := Function.update kernel.events thread events }

def setDeadline (suspendable : Suspendable) (deadline : Option Instant) (kernel : Kernel)
    : Kernel :=
  { kernel with deadline := Function.update kernel.deadline suspendable deadline }

/-- `Scheduler::set_pending_reschedule`. -/
def setPendingReschedule (kind : Nat) (kernel : Kernel) : Kernel :=
  { kernel with pendingRescheduleKind := kernel.pendingRescheduleKind ||| kind }

end Kernel

end Scars
