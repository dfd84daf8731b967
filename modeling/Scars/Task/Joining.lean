import Scars.Task.Slots
import Scars.Task.WakeRuns

/-! `ThreadExecutor` with the slots of its tasks: `spawn`, `block_on` and `JoinHandle::join` on
the executor's thread, up to the output that they return.
-/

namespace Scars

open Runs Function

/-- A thread executor in its polls, the slots of its tasks with the outputs in them, and which
tasks have a `JoinHandle`. The outputs that `block_on` and `join` returned are an observer that
no step reads.
-/
structure Joining (T : Type) extends Polling where
  slot : TaskId → Slot
  output : TaskId → Option T
  joinHandle : TaskId → Bool
  returned : List (TaskId × T)

inductive JoinEvent (T : Type) where
  /-- A slot is claimed, initialised and spawned. -/
  | spawn (task : TaskId)
  /-- A slot is claimed and initialised, and `ThreadExecutor::block_on` called for it. -/
  | blockOn (task : TaskId)
  | join (task : TaskId)
  /-- The `JoinHandle` of the task is dropped. -/
  | dropHandle (task : TaskId)
  /-- The executor takes its next step, with the clock readings that it makes. -/
  | advance (clock : Nat → Instant)
  /-- The running task sleeps. -/
  | sleepUntil (deadline : Instant)
  /-- The future of the running task returns its output, or that it is pending. -/
  | endPoll (output : Option T)
  /-- `wait_events_until` returns. -/
  | wakeup
  /-- The waker of the task is called. -/
  | wake (task : TaskId)

namespace Joining

variable {T : Type}

def start (T : Type) : Joining T where
  toPolling := .start .thread
  slot := fun _ => {}
  output := fun _ => none
  joinHandle := fun _ => false
  returned := []

def setSlot (task : TaskId) (slot : Slot) (state : Joining T) : Joining T :=
  { state with slot := update state.slot task slot }

/-- One of the links of the control block is in a queue of the executor. -/
def linked (state : Joining T) (task : TaskId) : Bool :=
  state.awake task || state.inSleepList task

/-- A step of the executor. -/
def onPolling (fuel : Nat) (event : PollEvent) (state : Joining T) : Except Fault (Joining T) := do
  let polling ← state.toPolling.step fuel event
  return { state with toPolling := polling }

/-- `Task::claim` and `Task::init`. A control block that is written over while it is linked leaves
a broken list behind, and the model stops there.
-/
def init (task : TaskId) (state : Joining T) : Except Fault (Joining T) :=
  if (state.slot task).state = .free then
    if state.linked task then .error .unreachable
    else
      .ok { state.setSlot task (state.slot task).claim.init with
        toExecutor := Slots.resetNode task state.toExecutor }
  else
    .error .notCallable

/-- `RawThreadExecutor::block_on` up to its loop. A task may call it in its poll, too, where the
ready queue is borrowed.
-/
def enterBlockOn (task : TaskId) (state : Joining T) : Except Fault (Joining T) :=
  if state.place = .outside ∨ state.inPoll then do
    let executor ← state.toExecutor.spawn task
    return { state with
      toExecutor := executor, place := .resuming blockOnResumptions, blockOnTask := task
      woken := update state.woken task true }
  else
    .error .notCallable

/-- `join` takes the `JoinHandle` by value. -/
def takeHandle (task : TaskId) (state : Joining T) : Joining T :=
  { state with joinHandle := update state.joinHandle task false }

/-- `ThreadExecutor::block_on` after the loop: `try_read_output`, whose drop of the control block
resumes the pending tasks, and the drop of the handle.
-/
def readOutput (fuel : Nat) (task : TaskId) (state : Joining T) : Except Fault (Joining T) :=
  match (state.slot task).state, state.output task with
  | .finished, some output => do
      let executor ← state.toExecutor.resumePendingTasks fuel true
      return { state.setSlot task (state.slot task).readOutput.dropHandle with
        toExecutor := executor
        output := update state.output task none
        returned := state.returned ++ [(task, output)] }
  | .finished, none => .error .uninitialisedRead
  | _, _ => .error .notReadyAfterBlockOn

/-- The part of `Task::poll` after the future returned. -/
def finish (task : TaskId) (output : Option T) (state : Joining T) : Joining T :=
  match output with
  | some output =>
      { state.setSlot task (state.slot task).finish with
        output := update state.output task (some output) }
  | none => state

/-- A poll returns, and `block_on` with it if its task is finished. -/
def endPoll (fuel : Nat) (output : Option T) (state : Joining T) : Except Fault (Joining T) :=
  match state.place with
  | .running task => do
      let state ← (state.finish task output).onPolling fuel (.endPoll output.isSome)
      if state.place = .outside then state.readOutput fuel task else return state
  | _ => .error .notCallable

/-- `Task::drop_handle`; the drop of the control block resumes the pending tasks. -/
def dropHandle (fuel : Nat) (task : TaskId) (state : Joining T) : Except Fault (Joining T) :=
  let dropped :=
    { state.setSlot task (state.slot task).dropHandle with
      output := update state.output task none
      joinHandle := update state.joinHandle task false }
  if (state.slot task).state.hasControlBlock then dropped.onPolling fuel (.op .dropHandle)
  else .ok dropped

def step (fuel : Nat) (state : Joining T) : JoinEvent T → Except Fault (Joining T)
  | .spawn task => do
      let state ← state.init task
      let state ← state.onPolling fuel (.op (.spawn task))
      return { state with
        woken := update state.woken task true
        joinHandle := update state.joinHandle task true }
  | .blockOn task => do
      let state ← state.init task
      state.enterBlockOn task
  | .join task =>
      if state.joinHandle task then
        (state.takeHandle task).enterBlockOn task
      else
        .error .notCallable
  | .dropHandle task =>
      if state.joinHandle task then state.dropHandle fuel task else .error .notCallable
  | .advance clock => state.onPolling fuel (.advance clock)
  | .sleepUntil deadline => state.onPolling fuel (.op (.sleepUntil deadline))
  | .endPoll output => state.endPoll fuel output
  | .wakeup => state.onPolling fuel .wakeup
  | .wake task => state.onPolling fuel (.wake task)

end Joining

end Scars
