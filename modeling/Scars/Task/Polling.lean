import Scars.Task.Executor

/-! `block_on` of the thread executor and `poll` of the interrupt executor, step by step.
A poll of a task runs code of the task, which calls back into the executor; other contexts
wake tasks between any two steps.
-/

namespace Scars

open Runs

/-- `PollKind`. -/
inductive PollKind where
  | onAttach
  | onInterrupt
  | onWakeup
  | onResume
  deriving DecidableEq, Repr

/-- The three transfers that precede the polls. -/
inductive Resumption where
  | wfi
  | sleeping
  | pending
  deriving DecidableEq, Repr

/-- The transfers of `RawInterruptExecutor::poll`. -/
def PollKind.resumptions : PollKind → List Resumption
  | .onAttach => [.wfi, .sleeping, .pending]
  | .onInterrupt => [.wfi, .pending]
  | .onWakeup => [.sleeping, .pending]
  | .onResume => [.pending]

/-- The transfers of one round of `RawThreadExecutor::block_on`. -/
def blockOnResumptions : List Resumption := [.sleeping, .pending]

/-- Where the executor is. -/
inductive PollPlace where
  | outside
  /-- These transfers come next. -/
  | resuming (resumptions : List Resumption)
  /-- The next ready task is popped. -/
  | polling
  /-- In the poll of a task. -/
  | running (task : TaskId)
  /-- The thread executor waits for events. -/
  | waiting
  deriving DecidableEq, Repr

/-- What code on the executor's thread or handler calls, in particular a task in its poll. -/
inductive TaskOp where
  | spawn (task : TaskId)
  | sleepUntil (deadline : Instant)
  | waitForInterrupt
  | wake (task : TaskId)
  /-- A handle is dropped, or its output read: the control block of the task is dropped, and
  `RawTask::drop` resumes the pending tasks.
  -/
  | dropHandle
  deriving DecidableEq, Repr

/-- An executor in its polls. The tasks woken and not polled since are an observer that no
step reads.
-/
structure Polling extends Executor where
  place : PollPlace
  blockOnTask : TaskId
  woken : TaskId → Bool

inductive PollEvent where
  /-- `RawThreadExecutor::block_on`. -/
  | blockOn (task : TaskId)
  /-- `RawInterruptExecutor::poll`. -/
  | poll (kind : PollKind)
  /-- The executor takes its next step, with the clock readings that it makes. -/
  | advance (clock : Nat → Instant)
  /-- The executor's own context calls into the executor. -/
  | op (op : TaskOp)
  /-- The poll of the running task returns whether the task is finished. -/
  | endPoll (finished : Bool)
  /-- `wait_events_until` returns. -/
  | wakeup
  /-- Another context wakes a task. -/
  | wake (task : TaskId)

namespace Polling

def start (kind : ExecutorKind) : Polling where
  toExecutor := .new kind
  place := .outside
  blockOnTask := 0
  woken := fun _ => false

/-- The waker of a task is called. -/
def wakeTask (fuel : Nat) (task : TaskId) (state : Polling) : Except Fault Polling := do
  let executor ← state.resumeTask fuel task
  return { state with toExecutor := executor, woken := Function.update state.woken task true }

/-- `RawThreadExecutor::block_on` up to its loop. -/
def blockOn (task : TaskId) (state : Polling) : Except Fault Polling :=
  if state.kind = .thread ∧ state.place = .outside then do
    let executor ← state.spawn task
    return { state with
      toExecutor := executor, place := .resuming blockOnResumptions, blockOnTask := task }
  else
    .error .notCallable

/-- One of the transfers. `block_on` does not send the executor its own event. -/
def resume (fuel : Nat) (clock : Nat → Instant) (resumption : Resumption) (executor : Executor)
    : Except Fault Executor :=
  match resumption with
  | .wfi => executor.resumeWfiTasks
  | .sleeping => executor.resumeSleepingTasks clock
  | .pending => executor.resumePendingTasks fuel false

/-- The guard of the ready queue that a task is popped and polled under: `block_on` has one for
all its polls, `poll_ready_tasks` takes one for each.
-/
def guardReady (state : Polling) : Except Fault Executor :=
  match state.kind with
  | .thread => .ok state.toExecutor
  | .interrupt => state.borrowMut .ready

/-- The next ready task is popped. After the last one the thread executor waits, and keeps its
guard.
-/
def pollNext (state : Polling) : Except Fault Polling := do
  let executor ← state.guardReady
  match executor.popReady with
  | (some task, executor) =>
      return { state with
        toExecutor := executor, place := .running task
        woken := Function.update state.woken task false }
  | (none, executor) =>
      -- the deadline of the first sleeping task is read
      if executor.borrowed .sleep then .error .alreadyBorrowed
      else
        match state.kind with
        | .thread => return { state with toExecutor := executor, place := .waiting }
        | .interrupt =>
            return { state with toExecutor := executor.release .ready, place := .outside }

def advance (fuel : Nat) (clock : Nat → Instant) (state : Polling) : Except Fault Polling := do
  match state.place with
  | .resuming (resumption :: rest) =>
      let executor ← resume fuel clock resumption state.toExecutor
      return { state with toExecutor := executor, place := .resuming rest }
  | .resuming [] =>
      match state.kind with
      | .thread =>
          let executor ← state.borrowMut .ready
          return { state with toExecutor := executor, place := .polling }
      | .interrupt => return { state with place := .polling }
  | .polling => state.pollNext
  | _ => .error .notCallable

/-- A call into the executor. Sleeping and waiting for the interrupt are for the running task. -/
def perform (fuel : Nat) (op : TaskOp) (state : Polling) : Except Fault Polling :=
  match op with
  | .spawn task => do
      let executor ← state.spawn task
      return { state with toExecutor := executor }
  | .sleepUntil deadline =>
      match state.place with
      | .running task => do
          let executor ← state.taskSleepUntil task deadline
          return { state with toExecutor := executor }
      | _ => .error .notCallable
  | .waitForInterrupt =>
      match state.place with
      | .running task => do
          let executor ← state.taskWaitForInterrupt task
          return { state with toExecutor := executor }
      | _ => .error .notCallable
  | .wake task => state.wakeTask fuel task
  | .dropHandle => do
      let executor ← state.resumePendingTasks fuel true
      return { state with toExecutor := executor }

/-- A poll returns. The interrupt executor drops its guard, the thread executor does so when
the task it blocks on is finished.
-/
def endPoll (finished : Bool) (state : Polling) : Except Fault Polling :=
  match state.place, state.kind with
  | .running task, .thread =>
      if finished ∧ task = state.blockOnTask then
        .ok { state with toExecutor := state.release .ready, place := .outside }
      else
        .ok { state with place := .polling }
  | .running _, .interrupt =>
      .ok { state with toExecutor := state.release .ready, place := .polling }
  | _, _ => .error .notCallable

def step (fuel : Nat) (state : Polling) : PollEvent → Except Fault Polling
  | .blockOn task => state.blockOn task
  | .poll kind =>
      if state.kind = .interrupt ∧ state.place = .outside then
        .ok { state with place := .resuming kind.resumptions }
      else
        .error .notCallable
  | .advance clock => state.advance fuel clock
  | .op op =>
      -- the executor's own context runs no other code while it transfers or waits
      match state.place with
      | .outside => state.perform fuel op
      | .running _ => state.perform fuel op
      | _ => .error .notCallable
  | .endPoll finished => state.endPoll finished
  | .wakeup =>
      match state.place with
      | .waiting =>
          .ok { state with
            toExecutor := state.release .ready, place := .resuming blockOnResumptions }
      | _ => .error .notCallable
  | .wake task => state.wakeTask fuel task

end Polling

end Scars
