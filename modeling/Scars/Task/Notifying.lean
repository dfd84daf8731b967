import Scars.Preemption.Pending
import Scars.Task.Polling

/-! `resume_task` to its end, and the other requests for a poll.
After the push the executor is notified: its thread is sent an event, or the poll of its handler
is requested by an interrupt and made at once for a thread. Other contexts come in between any
two steps of the executor and of a notification. What the scheduler does when it has the
preemption lock is the kernel's.
-/

namespace Scars

/-- What a context still has to do of a call. -/
inductive NotifyStage where
  /-- `send_events(EXECUTOR_WAKEUP_EVENT)` to the executor's thread. -/
  | sendEvents (thread : ThreadId)
  /-- `poll_now`. -/
  | pollNow
  /-- `set_pending_executor_poll`. -/
  | setPendingExecutorPoll (handler : HandlerId)
  /-- Its `push_back`, after the handler was found not linked. -/
  | pushExecutorPoll (handler : HandlerId)
  /-- `schedule_wakeup` at the end of `poll`. -/
  | scheduleWakeup (handler : HandlerId)
  deriving DecidableEq, Repr

/-- How the executor of a thread or handler is notified in a context. -/
def notification (owner context : ExecutionContext) : NotifyStage :=
  match owner, context with
  | .thread thread, _ => .sendEvents thread
  | .interrupt _, .thread _ => .pollNow
  | .interrupt handler, .interrupt _ => .setPendingExecutorPoll handler

def ExecutionContext.executorKind : ExecutionContext → ExecutorKind
  | .thread _ => .thread
  | .interrupt _ => .interrupt

/-- The executor of a thread or of a handler, with the calls that are under way. -/
structure Notifying extends Polling where
  owner : ExecutionContext
  /-- `PENDING_INTERRUPT_EXECUTOR_POLLS`. -/
  polls : QueueMemory Unit HandlerId
  /-- `pending_resume` and `pending_sleep`. -/
  pending : QueueMemory PendingQueue Suspendable
  calls : List (ExecutionContext × NotifyStage)

inductive NotifyEvent where
  /-- The executor's own context takes a step other than a wake. -/
  | executor (event : PollEvent)
  /-- The push of `resume_task`. -/
  | resumeTask (context : ExecutionContext) (task : TaskId)
  /-- `wakeup_interrupt`, in the context that the scheduler runs in. -/
  | wakeupInterrupt (context : ExecutionContext) (handler : HandlerId)
  /-- A context goes on with its call. It finds whether the thread waits for the event, and
  `PREEMPT_LOCK`.
  -/
  | goOn (context : ExecutionContext) (waits : Bool) (lock : Option ExecutionContext)
  /-- `interrupt_context` takes the next pending poll. -/
  | pollPending
  /-- `complete_pending` takes the next parked request. -/
  | completePending (queue : PendingQueue)

def PollEvent.wakes : PollEvent → Bool
  | .wake _ => true
  | .op (.wake _) => true
  | _ => false

namespace Notifying

def start (owner : ExecutionContext) : Notifying where
  toPolling := .start owner.executorKind
  owner := owner
  polls := .new
  pending := .new
  calls := []

def call (context : ExecutionContext) (state : Notifying) : Option NotifyStage :=
  state.calls.lookup context

def enter (context : ExecutionContext) (stage : NotifyStage) (state : Notifying) : Notifying :=
  { state with calls := (context, stage) :: state.calls }

def leave (context : ExecutionContext) (state : Notifying) : Notifying :=
  { state with calls := state.calls.filter fun call => call.1 ≠ context }

/-- What is left to do after a step of the executor. A poll that ends has its handler woken up
when the first sleeping task is due.
-/
def stillToDo (owner context : ExecutionContext) (before after : Polling) : List NotifyStage :=
  if after.notified then
    [notification owner context]
  else
    match owner with
    | .thread _ => []
    | .interrupt handler =>
        if before.place = .polling ∧ after.place = .outside ∧ after.sleepQueue ≠ [] then
          [.scheduleWakeup handler]
        else
          []

/-- A context that has no call under way takes a step of the executor. -/
def perform (fuel : Nat) (context : ExecutionContext) (event : PollEvent) (state : Notifying)
    : Except Fault Notifying :=
  if (state.call context).isSome then
    .error .notCallable
  else do
    let polling ← state.toPolling.step fuel event
    return { state with
      toPolling := { polling with notified := false }
      calls := (stillToDo state.owner context state.toPolling polling).map (context, ·)
        ++ state.calls }

def pushExecutorPoll (fuel : Nat) (handler : HandlerId) (state : Notifying)
    : Except Fault Notifying :=
  match state.polls.pushBack fuel () handler with
  | .ok polls => .ok { state with polls }
  | .error fault => .error (.queue fault)

/-- `push_back` on a pending queue, when the preemption lock is refused. -/
def pushPending (fuel : Nat) (queue : PendingQueue) (suspendable : Suspendable) (state : Notifying)
    : Except Fault Notifying :=
  match state.pending.pushBack fuel queue suspendable with
  | .ok pending => .ok { state with pending }
  | .error fault => .error (.queue fault)

/-- `PreemptLock::try_with` of a context fails. -/
def refused (context : ExecutionContext) (lock : Option ExecutionContext) : Bool :=
  (tryAcquireNestingLock lock context).isNone

/-- The next step of a call. -/
def goOn (fuel : Nat) (context : ExecutionContext) (waits : Bool)
    (lock : Option ExecutionContext) (stage : NotifyStage) (state : Notifying)
    : Except Fault Notifying :=
  match stage with
  | .sendEvents thread =>
      -- `resume_thread`, if the thread waits for the event
      if waits && refused context lock then state.pushPending fuel .resume (.thread thread)
      else .ok state
  | .pollNow => state.perform fuel state.owner (.poll .onWakeup)
  | .setPendingExecutorPoll handler =>
      if state.polls.isLinked handler then .ok state
      else .ok (state.enter context (.pushExecutorPoll handler))
  | .pushExecutorPoll handler => state.pushExecutorPoll fuel handler
  | .scheduleWakeup handler =>
      if refused context lock then state.pushPending fuel .sleep (.interrupt handler)
      else .ok state

def step (fuel : Nat) (state : Notifying) : NotifyEvent → Except Fault Notifying
  | .executor event =>
      if event.wakes then .error .notCallable else state.perform fuel state.owner event
  | .resumeTask context task =>
      state.perform fuel context (if context = state.owner then .op (.wake task) else .wake task)
  | .wakeupInterrupt context handler =>
      if (state.call context).isSome then .error .notCallable
      else .ok (state.enter context (.setPendingExecutorPoll handler))
  | .goOn context waits lock =>
      match state.call context with
      | none => .error .notCallable
      | some stage => (state.leave context).goOn fuel context waits lock stage
  | .pollPending =>
      match state.polls.popFront fuel () with
      | .error fault => .error (.queue fault)
      | .ok (popped, polls) =>
          if popped.map .interrupt = some state.owner then
            { state with polls }.perform fuel state.owner (.poll .onWakeup)
          else
            .ok { state with polls }
  | .completePending queue =>
      match state.pending.popFront fuel queue with
      | .error fault => .error (.queue fault)
      | .ok (_, pending) => .ok { state with pending }

end Notifying

end Scars
