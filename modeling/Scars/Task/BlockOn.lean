import Scars.Preemption.Machine
import Scars.Task.Polling

/-! `RawThreadExecutor::block_on` and `resume_task` on the machine.
The executor runs in the user code of its thread. Any context may call `resume_task`, which
pushes the task and then sends the event that the executor waits for; it may be interrupted
between any two accesses, and so may the executor. The atomic queues are FIFO queues here:
`pending_ready_queue` is the list of its tasks, and the queues of the scheduler may have any nodes
that hold the same items.
-/

namespace Scars

open Runs

/-- `EXECUTOR_WAKEUP_EVENT` is one of the events. -/
def Events.wakesExecutor (events : Events) : Bool := events.getLsbD 28

/-- The instruction is a wait for `EXECUTOR_WAKEUP_EVENT`, or the return of one. -/
def Instr.takesWakeup : Instr → Bool
  | .access (.collectEvents events _) => events.wakesExecutor
  | .access (.tryWaitEvents events) => events.wakesExecutor
  | _ => false

/-- What the executor's thread does by itself, and not in `resume_task` or when a wait returns. A
thread executor has no `task_wait_for_interrupt`.
-/
def PollEvent.isTurn : PollEvent → Bool
  | .blockOn _ => true
  | .advance _ => true
  | .op (.spawn _) => true
  | .op (.sleepUntil _) => true
  | .op .dropHandle => true
  | .endPoll _ => true
  | _ => false

namespace Polling

/-- One round of the loop of `resume_pending_tasks`. Other contexts do not borrow the ready queue,
so that nobody sees the guard dropped between the rounds.
-/
def resumePendingRound (rest : List Resumption) (pending : List TaskId) (state : Polling)
    : Except Fault (Polling × List TaskId) := do
  let executor ← state.borrowMut .ready
  match pending with
  | [] => return ({ state with toExecutor := executor.release .ready, place := .resuming rest }, [])
  | task :: pending =>
      let executor ← executor.pushReady task
      return ({ state with toExecutor := executor.release .ready }, pending)

/-- `resume_pending_tasks` in the drop of a task. -/
def resumeAllPending (pending : List TaskId) (state : Polling) : Except Fault Polling := do
  let executor ← state.borrowMut .ready
  let executor ← run (fun executor task => executor.pushReady task) executor pending
  return { state with toExecutor := executor.release .ready }

/-- A step of the executor's thread, with one step for each round of `resume_pending_tasks` in
`block_on`.
-/
def turn (fuel : Nat) (event : PollEvent) (pending : List TaskId) (state : Polling)
    : Except Fault (Polling × List TaskId) :=
  match event, state.place with
  | .advance _, .resuming (.pending :: rest) => state.resumePendingRound rest pending
  | .op .dropHandle, .outside | .op .dropHandle, .running _ => do
      let state ← state.resumeAllPending pending
      return (state, [])
  | .op .dropHandle, _ => .error .notCallable
  | _, _ => do
      let state ← state.step fuel event
      return (state, pending)

/-- The wait of `block_on`, which ends at the deadline of the first sleeping task. -/
def waitCall (state : Polling) : Call :=
  match state.sleepQueue with
  | [] => .waitEvents Events.EXECUTOR_WAKEUP_EVENT
  | task :: _ => .waitEventsUntil Events.EXECUTOR_WAKEUP_EVENT (state.wakeupTime task)

end Polling

/-- What a context has done of `resume_task`. -/
inductive ResumeStage where
  /-- The task is pushed, and the event is not sent. -/
  | pushed
  /-- The event is in the sent mask; `send_events` has not looked at the waited mask. -/
  | sent
  deriving DecidableEq, Repr

/-- How far a context is in `resume_task` after its next instruction. -/
def ResumeStage.after (thread : ThreadId) (stage : Option ResumeStage)
    : List Instr → Option ResumeStage
  | .access (.sendEvents receiver events) :: _ =>
      if receiver = thread ∧ events.wakesExecutor then some .sent else stage
  | .access (.checkWaitedEvents receiver sentEvents) :: _ =>
      if receiver = thread ∧ sentEvents.wakesExecutor ∧ stage = some .sent then none else stage
  | _ => stage

/-- The machine, the executor of one of its threads, and how far the calls of `resume_task` are. -/
structure ExecutorThread extends Machine where
  thread : ThreadId
  polling : Polling
  pendingReadyQueue : List TaskId
  resuming : ExecutionContext → Option ResumeStage

inductive ExecutorEvent where
  /-- A step of the machine; the calls are those of user code around `block_on` and in polls. -/
  | machine (event : Machine.Event)
  /-- The `push_back` of `resume_task`. -/
  | resumeTask (task : TaskId)
  /-- The executor's thread takes a step of `block_on`, or calls into the executor. -/
  | poll (event : PollEvent)
  /-- The pending queues of the scheduler are the same FIFO queues with other nodes. -/
  | requeue (pending : QueueMemory PendingQueue Suspendable)

namespace ExecutorThread

def start (program : Program) (thread : ThreadId) : ExecutorThread where
  toMachine := Machine.start program
  thread := thread
  polling := .start .thread
  pendingReadyQueue := []
  resuming := fun _ => none

/-- The executor's thread runs. -/
def isOwn (state : ExecutorThread) : Bool := state.context == .thread state.thread

/-- Code of the user runs, and not code of the executor. -/
def inUser (state : ExecutorThread) : Bool :=
  state.running.head? == some .user
    && (!state.isOwn
      || match state.polling.place with
        | .outside => true
        | .running _ => true
        | _ => false)

/-- After its push `resume_task` sends the event; the executor's thread waits for the event in
`block_on` only.
-/
def mayCall (state : ExecutorThread) (call : Call) : Bool :=
  state.inUser
    && (state.resuming state.context != some .pushed
      || call == .sendEvents state.thread Events.EXECUTOR_WAKEUP_EVENT)
    && (!state.isOwn || !call.code.any Instr.takesWakeup)

def permits (state : ExecutorThread) : Machine.Event → Bool
  | .call call => state.mayCall call
  | .finish => state.inUser && state.resuming state.context != some .pushed
  | _ => true

/-- The wait of `block_on` returns in this step. -/
def returns (state : ExecutorThread) : Machine.Event → Bool
  | .exec _ =>
      state.isOwn && state.polling.place == .waiting
        && state.running.head?.any Instr.takesWakeup
  | _ => false

/-- How far the calls of `resume_task` are after a step of the machine. -/
def stages (state : ExecutorThread) : Machine.Event → ExecutionContext → Option ResumeStage
  | .exec _ =>
      Function.update state.resuming state.context
        (ResumeStage.after state.thread (state.resuming state.context) state.running)
  | _ => state.resuming

/-- The executor after a step of the machine: `block_on` goes on when its wait returns. -/
def pollingAfter (fuel : Nat) (event : Machine.Event) (state : ExecutorThread)
    : Except Fault Polling :=
  if state.returns event then state.polling.step fuel .wakeup else .ok state.polling

/-- The machine after a step of the executor, which makes the call to wait when it comes to it. -/
def machineAfter (fuel : Nat) (polling : Polling) (state : ExecutorThread)
    : Except Fault Machine :=
  if polling.place = .waiting then state.toMachine.step fuel (.call polling.waitCall)
  else .ok state.toMachine

def step (fuel : Nat) (state : ExecutorThread) : ExecutorEvent → Except Fault ExecutorThread
  | .machine event =>
      if state.permits event then do
        let machine ← state.toMachine.step fuel event
        let polling ← state.pollingAfter fuel event
        return { state with
          toMachine := machine, polling := polling, resuming := state.stages event }
      else
        .error .notCallable
  | .resumeTask task =>
      if state.inUser ∧ state.resuming state.context = none then
        if state.pendingReadyQueue.contains task then
          .error (.queue .itemAlreadyInQueue)
        else
          .ok { state with
            pendingReadyQueue := state.pendingReadyQueue ++ [task]
            resuming := Function.update state.resuming state.context (some .pushed) }
      else
        .error .notCallable
  | .poll event =>
      if event.isTurn ∧ state.isOwn ∧ state.polling.place ≠ .waiting
          ∧ state.running.head? = some .user ∧ state.resuming state.context = none then do
        let (polling, pendingReadyQueue) ← state.polling.turn fuel event state.pendingReadyQueue
        let machine ← state.machineAfter fuel polling
        return { state with toMachine := machine, polling, pendingReadyQueue }
      else
        .error .notCallable
  | .requeue pending => .ok { state with pending := pending }

end ExecutorThread

end Scars
