import Scars.Kernel.Scheduler

/-! Ceiling locks, wait queues and event sets as the running thread and interrupt handlers
use them. The running thread takes and releases its own locks only.
-/

namespace Scars.Kernel

open Function

def setThread (thread : ThreadId) (raw : RawThread) (kernel : Kernel) : Kernel :=
  { kernel with thread := update kernel.thread thread raw }

/-- Stores the pair of lock priorities and sets the interrupt threshold to match. -/
def setLockPriorities (thread : ThreadId) (priorities : PriorityStatus × PriorityStatus)
    (kernel : Kernel)
    : Kernel :=
  kernel.setThread thread { kernel.thread thread with lockPriorities := priorities }
    |>.setCeilingThreshold (priorities.1.max priorities.2)

/-- `RawThread::update_owned_lock_priority`. -/
def updateOwnedLockPriority (thread : ThreadId) (kernel : Kernel) : Kernel :=
  let newPriority := match (kernel.thread thread).scopedLocks with
    | [] => PriorityStatus.invalid
    | head :: _ => .valid (kernel.lock head).ceilingPriority
  kernel.setLockPriorities thread ((kernel.thread thread).lockPriorities.1, newPriority)

def setLockOwner (lock : LockId) (owner : Option ThreadId) (kernel : Kernel) : Kernel :=
  { kernel with
    lock := update kernel.lock lock { kernel.lock lock with owner := owner } }

def setScopedLocks (thread : ThreadId) (locks : List LockId) (kernel : Kernel) : Kernel :=
  kernel.setThread thread { kernel.thread thread with scopedLocks := locks }

/-- `RawThread::acquire_scoped_lock`. -/
def acquireScopedLock (thread : ThreadId) (lock : LockId) (kernel : Kernel)
    : Except Fault Kernel :=
  match kernel.state thread with
  | .running =>
      if (kernel.lock lock).owner ≠ none then
        .error .lockAlreadyOwned
      else
        let kernel := kernel.setLockOwner lock (some thread)
        let ceilingPriority := (kernel.lock lock).ceilingPriority
        let kernel := kernel.setScopedLocks thread
          (OrderedInsert.insertPast
            (fun held => decide (ceilingPriority < (kernel.lock held).ceilingPriority))
            lock (kernel.thread thread).scopedLocks)
        .ok (kernel.updateOwnedLockPriority thread)
  | state => .error (.cannotAcquire state)

/-- `RawCeilingLock::acquire_scoped_lock_in_thread` for the current thread. -/
def lockScoped (lock : LockId) (kernel : Kernel) : Except Fault Kernel :=
  let current := kernel.currentThread
  if current = IDLE_THREAD_ID then
    .error .idleThreadCeilingLock
  else if (kernel.lock lock).owner = some current then
    .error .recursiveLock
  else if (kernel.lock lock).ceilingPriority < kernel.priority current then
    .error .ceilingPriorityViolation
  else
    kernel.acquireScopedLock current lock

/-- `RawThread::release_scoped_lock`, for a lock the thread owns. -/
def releaseScopedLock (thread : ThreadId) (lock : LockId) (kernel : Kernel)
    : Except Fault Kernel :=
  if (kernel.thread thread).scopedLocks.contains lock then
    let kernel := kernel.setScopedLocks thread ((kernel.thread thread).scopedLocks.erase lock)
    let kernel := kernel.setLockOwner lock none
    .ok (kernel.updateOwnedLockPriority thread).condReschedule
  else
    .error .notInList

/-- `RawCeilingLock::release_scoped_lock_in_thread` for the current thread. -/
def unlockScoped (lock : LockId) (kernel : Kernel) : Except Fault Kernel :=
  match (kernel.lock lock).owner with
  | none => .ok kernel
  | some owner =>
      if owner ≠ kernel.currentThread then
        .error .lockOwnerViolation
      else
        kernel.releaseScopedLock owner lock

/-- `acquire_nesting_lock` in the current thread, with `raise_nesting_lock_priority`. -/
def enterSection (ceiling : Priority) (kernel : Kernel) : Kernel :=
  let current := kernel.currentThread
  let raw := kernel.thread current
  let newPriority := ceiling.max raw.basePriority
  let (nesting, owned) := raw.lockPriorities
  kernel.setThread current
      { raw with sections := { ceiling, savedPriority := nesting } :: raw.sections }
    |>.setLockPriorities current (nesting.max (.valid newPriority), owned)

/-- `set_nesting_lock_priority` when the innermost section of the current thread ends, with
its `cond_reschedule`. The caller's own `cond_reschedule` follows as a step of its own.
-/
def leaveSection (kernel : Kernel) : Except Fault Kernel :=
  let current := kernel.currentThread
  let raw := kernel.thread current
  match raw.sections with
  | [] => .error .notCallable
  | innermost :: rest =>
      .ok (kernel.setThread current { raw with sections := rest }
        |>.setLockPriorities current (innermost.savedPriority, raw.lockPriorities.2)
        |>.condReschedule)

/-- `Suspendable::notify`; the notification of an interrupt handler does nothing. -/
def notifySuspendable (suspendable : Suspendable) (kernel : Kernel) : Except Fault Kernel :=
  match suspendable with
  | .thread thread => kernel.resumeThread thread
  | .interrupt _ => .ok kernel

/-- `pop_front` of a wait queue. -/
def popWaiter (queue : WaitQueueId) (kernel : Kernel) : Option Suspendable × Kernel :=
  match kernel.waitQueue queue with
  | [] => (none, kernel)
  | head :: rest =>
      (some head, { kernel with
        waitQueue := update kernel.waitQueue queue rest
        waitOwner := update kernel.waitOwner head none })

/-- The body of `notify_one`, and of one round of `notify_all`. -/
def notifyNext (queue : WaitQueueId) (kernel : Kernel) : Except Fault Kernel :=
  match kernel.popWaiter queue with
  | (none, kernel) => .ok kernel
  | (some waiter, kernel) => kernel.notifySuspendable waiter

/-- `RawThread::send_events` when nothing comes in between. -/
def sendEvents (thread : ThreadId) (events : Events) (kernel : Kernel)
    : Except Fault Kernel :=
  let (notify, set) := (kernel.events thread).sendEvents events
  let kernel := kernel.setEvents thread set
  if notify then kernel.resumeThread thread else .ok kernel

/-- `RawThread::start`, with the `start_thread` syscall it ends in. -/
def startThread (thread : ThreadId) (kernel : Kernel) : Except Fault Kernel :=
  if kernel.state thread ≠ .created then
    .error .startedTwice
  else
    (kernel.setState thread .started).resumeThread thread

end Scars.Kernel
