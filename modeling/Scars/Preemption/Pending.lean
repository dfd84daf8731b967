import Scars.Kernel.Locks

/-! `Scheduler`: requests that find the preemption lock taken are parked in two queues.
`pending_resume` and `pending_sleep` link the same node of a suspendable, so both live in one
memory. Releasing the lock completes what is parked.
-/

namespace Scars

/-- `PreemptLock::try_acquire_nesting_lock`: the previous value of `PREEMPT_LOCK`, or nothing
when a thread or a lower priority interrupt holds it.
-/
def tryAcquireNestingLock (lock : Option ExecutionContext) (context : ExecutionContext)
    : Option (Option ExecutionContext) :=
  match context with
  | .interrupt _ => if lock = none ∨ lock = some context then some lock else none
  | .thread _ => some lock

inductive PendingQueue where
  | resume
  | sleep
  deriving DecidableEq, Repr

structure Scheduler where
  raw : Kernel
  pending : QueueMemory PendingQueue Suspendable

namespace Scheduler

/-- `push_back` on `pending_resume` or `pending_sleep`. -/
def pushPending (fuel : Nat) (queue : PendingQueue) (suspendable : Suspendable)
    (scheduler : Scheduler)
    : Except Fault Scheduler :=
  match scheduler.pending.pushBack fuel queue suspendable with
  | .ok pending => .ok { scheduler with pending := pending }
  | .error fault => .error (.queue fault)

/-- `pop_front` on `pending_resume` or `pending_sleep`. -/
def popPending (fuel : Nat) (queue : PendingQueue) (scheduler : Scheduler)
    : Except Fault (Option Suspendable × Scheduler) :=
  match scheduler.pending.popFront fuel queue with
  | .ok (popped, pending) => .ok (popped, { scheduler with pending := pending })
  | .error fault => .error (.queue fault)

/-- What `complete_pending` does with an item it popped. -/
def completeNow (fuel : Nat) (queue : PendingQueue) (suspendable : Suspendable) (kernel : Kernel)
    : Except Fault Kernel :=
  match queue with
  | .resume => kernel.resumeSuspendableNow fuel suspendable
  | .sleep => kernel.suspendSuspendableNow suspendable

/-- One of the two loops of `complete_pending`, bounded by `rounds`. -/
def drain (fuel : Nat) (queue : PendingQueue) : Nat → Scheduler → Except Fault Scheduler
  | 0, _ => .error .diverges
  | rounds + 1, scheduler => do
      match ← scheduler.popPending fuel queue with
      | (none, scheduler) => return scheduler
      | (some suspendable, scheduler) =>
          let raw ← completeNow fuel queue suspendable scheduler.raw
          drain fuel queue rounds { scheduler with raw := raw }

/-- `Scheduler::complete_pending`. -/
def completePending (fuel rounds : Nat) (scheduler : Scheduler) : Except Fault Scheduler := do
  let scheduler ← scheduler.drain fuel .resume rounds
  scheduler.drain fuel .sleep rounds

end Scheduler

/-- The requests an interrupt handler makes to the scheduler. -/
inductive Request where
  /-- `Scheduler::resume_thread`. -/
  | resumeThread (thread : ThreadId)
  /-- `RawThread::send_events`. -/
  | sendEvents (thread : ThreadId) (events : Events)
  /-- `Scheduler::schedule_interrupt_wakeup`. -/
  | scheduleInterruptWakeup (handler : HandlerId) (wakeupTime : Instant)
  deriving DecidableEq, Repr

namespace Scheduler

/-- The body of a `try_with` that got the lock, up to its release. -/
def withLock (fuel rounds : Nat) (restoreState : Option ExecutionContext)
    (body : Kernel → Except Fault Kernel) (scheduler : Scheduler)
    : Except Fault Scheduler := do
  let raw ← body scheduler.raw
  let scheduler := { scheduler with raw := raw }
  if restoreState = none then scheduler.completePending fuel rounds else return scheduler

/-- `Scheduler::resume_thread` called in `context`. -/
def resumeThread (fuel rounds : Nat) (lock : Option ExecutionContext)
    (context : ExecutionContext) (thread : ThreadId) (scheduler : Scheduler)
    : Except Fault Scheduler :=
  match tryAcquireNestingLock lock context with
  | some restoreState =>
      scheduler.withLock fuel rounds restoreState fun raw => raw.resumeThread thread
  | none => scheduler.pushPending fuel .resume (.thread thread)

/-- `RawThread::send_events` called in `context`, with nothing between its accesses. -/
def sendEvents (fuel rounds : Nat) (lock : Option ExecutionContext)
    (context : ExecutionContext) (thread : ThreadId) (events : Events) (scheduler : Scheduler)
    : Except Fault Scheduler :=
  let (notify, set) := (scheduler.raw.events thread).sendEvents events
  let scheduler := { scheduler with raw := scheduler.raw.setEvents thread set }
  if notify then scheduler.resumeThread fuel rounds lock context thread else .ok scheduler

/-- `Scheduler::schedule_interrupt_wakeup` called in `context`. -/
def scheduleInterruptWakeup (fuel rounds : Nat) (lock : Option ExecutionContext)
    (context : ExecutionContext) (handler : HandlerId) (wakeupTime : Instant)
    (scheduler : Scheduler)
    : Except Fault Scheduler :=
  -- the deadline is set before the lock is tried
  let scheduler :=
    { scheduler with raw := scheduler.raw.setDeadline (.interrupt handler) (some wakeupTime) }
  match tryAcquireNestingLock lock context with
  | some restoreState =>
      scheduler.withLock fuel rounds restoreState fun raw => raw.scheduleInterruptWakeup handler
  | none => scheduler.pushPending fuel .sleep (.interrupt handler)

/-- A request made by an interrupt handler. -/
def request (fuel rounds : Nat) (lock : Option ExecutionContext) (scheduler : Scheduler)
    : HandlerId × Request → Except Fault Scheduler
  | (caller, .resumeThread thread) =>
      scheduler.resumeThread fuel rounds lock (.interrupt caller) thread
  | (caller, .sendEvents thread events) =>
      scheduler.sendEvents fuel rounds lock (.interrupt caller) thread events
  | (caller, .scheduleInterruptWakeup handler wakeupTime) =>
      scheduler.scheduleInterruptWakeup fuel rounds lock (.interrupt caller) handler wakeupTime

end Scheduler

end Scars
