import Scars.Kernel.SingleQueue
import Scars.Task.Polling

/-! `Task`, the slot of an asynchronous task, from `init` to the drop of its handle.
The state word says which of the three values are alive; writes and drops are counted, so that
a value dropped twice or never is seen in the counts.
-/

namespace Scars

open Runs

/-- `ASYNC_TASK_STATE_FREE`, `_UNINIT`, `_RUNNING` and `_FINISHED`. -/
inductive SlotState where
  | free
  | uninit
  | running
  | finished
  deriving DecidableEq, Repr

/-- The states in which the control block and the future are alive. -/
def SlotState.hasControlBlock : SlotState → Bool
  | .free => false
  | .uninit => false
  | .running => true
  | .finished => true

/-- The state in which the output is alive. -/
def SlotState.hasOutput : SlotState → Bool
  | .free => false
  | .uninit => false
  | .running => false
  | .finished => true

/-- A `MaybeUninit`: how often it was written, and how often dropped or moved out. -/
structure SlotValue where
  written : Nat := 0
  dropped : Nat := 0
  deriving DecidableEq, Repr

namespace SlotValue

def write (value : SlotValue) : SlotValue := { value with written := value.written + 1 }

/-- `assume_init_read`. -/
def read (value : SlotValue) : SlotValue := { value with dropped := value.dropped + 1 }

end SlotValue

/-- `Task`, and how many handles of it are alive. -/
structure Slot where
  state : SlotState := .free
  controlBlock : SlotValue := {}
  future : SlotValue := {}
  output : SlotValue := {}
  handles : Nat := 0
  deriving DecidableEq, Repr

namespace Slot

/-- `Task::claim`. -/
def claim (slot : Slot) : Slot :=
  match slot.state with
  | .free => { slot with state := .uninit }
  | _ => slot

/-- `Task::init`, without the links of the new control block. -/
def init (slot : Slot) : Slot :=
  { slot with
    controlBlock := slot.controlBlock.write
    future := slot.future.write
    state := .running
    handles := slot.handles + 1 }

/-- The part of `Task::poll` after the future returned `Ready`. -/
def finish (slot : Slot) : Slot := { slot with output := slot.output.write, state := .finished }

/-- The values that `drop_handle` drops in the state it found. -/
def dropValues (slot : Slot) : Slot :=
  match slot.state with
  | .running => { slot with controlBlock := slot.controlBlock.read, future := slot.future.read }
  | .finished =>
      { slot with
        controlBlock := slot.controlBlock.read
        future := slot.future.read
        output := slot.output.read }
  | _ => slot

/-- `Task::drop_handle`, without what the drop of the control block does to the executor. -/
def dropHandle (slot : Slot) : Slot :=
  { slot.dropValues with state := .free, handles := slot.handles - 1 }

/-- `Task::try_read_output` of a finished task, without what the drop of the control block does
to the executor.
-/
def readOutput (slot : Slot) : Slot :=
  { slot with
    output := slot.output.read
    controlBlock := slot.controlBlock.read
    future := slot.future.read
    state := .free }

end Slot

/-- An executor, the wait queues and the task slots. -/
structure Slots where
  executor : Executor
  waits : WaitQueues
  slot : TaskId → Slot
  /-- The task whose future is being polled. -/
  polled : Option TaskId

inductive SlotEvent where
  | claim (task : TaskId)
  | init (task : TaskId)
  | spawn (task : TaskId)
  /-- The waker of the task is called. -/
  | wake (task : TaskId)
  /-- The executor transfers tasks to its ready queue. -/
  | resume (resumption : Resumption) (clock : Nat → Instant)
  /-- The executor pops a ready task and polls it. -/
  | poll
  /-- The poll returns, with the future's output if it is finished. -/
  | endPoll (finished : Bool)
  | sleepUntil (deadline : Instant)
  | waitForInterrupt
  /-- The polled task polls an `async_wait`. -/
  | asyncWait (queue : WaitQueueId) (waiterQueued : Bool)
  | notifyOne (queue : WaitQueueId)
  /-- `try_read_output` through a handle that is alive. -/
  | readOutput (task : TaskId)
  | dropHandle (task : TaskId)

namespace Slots

def start (kind : ExecutorKind) : Slots where
  executor := .new kind
  waits := .start
  slot := fun _ => {}
  polled := none

def setSlot (task : TaskId) (slot : Slot) (state : Slots) : Slots :=
  { state with slot := Function.update state.slot task slot }

/-- One of the links of the control block is in a list or queue. -/
def linked (state : Slots) (task : TaskId) : Bool :=
  state.executor.pendingReadyQueue.isLinked task || state.executor.readyQueue.contains task
    || state.executor.inSleepList task || (state.waits.owner (.task task)).isSome

/-- `AtomicNode::new` over the pending node of the task. -/
def resetNode (task : TaskId) (executor : Executor) : Executor :=
  { executor with pendingReadyQueue := executor.pendingReadyQueue.resetNode task }

/-- `Task::init`. A control block that is written over while it is linked leaves a broken list
behind, and the model stops there.
-/
def init (task : TaskId) (state : Slots) : Except Fault Slots :=
  if state.linked task then .error .unreachable
  else
    .ok { state.setSlot task (state.slot task).init with
      executor := resetNode task state.executor }

/-- An operation of the executor. -/
def onExecutor (operation : Executor → Except Fault Executor) (state : Slots)
    : Except Fault Slots := do
  let executor ← operation state.executor
  return { state with executor }

/-- The task in its poll calls into the executor. -/
def onPolled (operation : TaskId → Executor → Except Fault Executor) (state : Slots)
    : Except Fault Slots :=
  match state.polled with
  | some task => state.onExecutor (operation task)
  | none => .error .notCallable

/-- `RawTask::drop`, if the slot has a control block. -/
def dropControlBlock (fuel : Nat) (slot : Slot) (state : Slots) : Except Fault Slots :=
  if slot.state.hasControlBlock then state.onExecutor (Executor.resumePendingTasks fuel true)
  else .ok state

def step (fuel : Nat) (state : Slots) : SlotEvent → Except Fault Slots
  | .claim task => .ok (state.setSlot task (state.slot task).claim)
  | .init task => state.init task
  | .spawn task =>
      -- `control_block` asserts that the slot is initialised
      if (state.slot task).state = .uninit then .error .unreachable
      else state.onExecutor (Executor.spawn task)
  | .wake task => state.onExecutor (Executor.resumeTask fuel task)
  | .resume resumption clock => state.onExecutor (Polling.resume fuel clock resumption)
  | .poll =>
      match state.polled, state.executor.popReady with
      | none, (some task, executor) => .ok { state with executor, polled := some task }
      | _, _ => .error .notCallable
  | .endPoll finished =>
      match state.polled with
      | none => .error .notCallable
      | some task =>
          let state := { state with polled := none }
          if finished then .ok (state.setSlot task (state.slot task).finish) else .ok state
  | .sleepUntil deadline => state.onPolled fun task => Executor.taskSleepUntil task deadline
  | .waitForInterrupt => state.onPolled Executor.taskWaitForInterrupt
  | .asyncWait queue waiterQueued =>
      match state.polled with
      | none => .error .notCallable
      | some task => do
          let (_, waits) ← state.waits.pollAsyncWait queue task waiterQueued
          return { state with waits }
  | .notifyOne queue =>
      match state.waits.notifyOne queue with
      | (some (.task task), waits) =>
          { state with waits }.onExecutor (Executor.resumeTask fuel task)
      | (_, waits) => .ok { state with waits }
  | .readOutput task =>
      let slot := state.slot task
      if 0 < slot.handles then
        match slot.state with
        | .finished => (state.setSlot task slot.readOutput).dropControlBlock fuel slot
        | _ => .ok state
      else .error .notCallable
  | .dropHandle task =>
      let slot := state.slot task
      if 0 < slot.handles then
        (state.setSlot task slot.dropHandle).dropControlBlock fuel slot
      else .error .notCallable

end Slots

end Scars
