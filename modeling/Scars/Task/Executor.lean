import Scars.Sync.WaitQueue

/-! `RawThreadExecutor` and `RawInterruptExecutor`: their queues and what moves tasks between
them. A task has one link for the ready queue, one that the sleep queue and the
interrupt-wait queue share, and an atomic one for the pending queue.
-/

namespace Scars

open Runs

inductive ExecutorKind where
  | thread
  | interrupt
  deriving DecidableEq, Repr

/-- The queues that are kept in a `PinRefCell`. Only the interrupt executor has a `wfi_queue`. -/
inductive ExecutorQueue where
  | ready
  | sleep
  | wfi
  deriving DecidableEq, Repr

structure Executor where
  kind : ExecutorKind
  readyQueue : List TaskId
  sleepQueue : List TaskId
  wfiQueue : List TaskId
  pendingReadyQueue : QueueMemory Unit TaskId
  wakeupTime : TaskId → Instant
  /-- A mutable borrow of the queue is alive. -/
  borrowed : ExecutorQueue → Bool
  /-- A call readied a task and is about to notify the executor. -/
  notified : Bool

namespace Executor

/-- `RawThreadExecutor::new` and `RawInterruptExecutor::new`. -/
def new (kind : ExecutorKind) : Executor where
  kind := kind
  readyQueue := []
  sleepQueue := []
  wfiQueue := []
  pendingReadyQueue := .new
  wakeupTime := fun _ => 0
  borrowed := fun _ => false
  notified := false

/-- `borrow_mut`, which panics while another borrow is alive. -/
def borrowMut (queue : ExecutorQueue) (executor : Executor) : Except Fault Executor :=
  if executor.borrowed queue then .error .alreadyBorrowed
  else .ok { executor with borrowed := Function.update executor.borrowed queue true }

/-- The guard that `borrow_mut` returned is dropped. -/
def release (queue : ExecutorQueue) (executor : Executor) : Executor :=
  { executor with borrowed := Function.update executor.borrowed queue false }

/-- The body runs while the guard is alive. -/
def withBorrow (queue : ExecutorQueue) (body : Executor → Except Fault Executor)
    (executor : Executor)
    : Except Fault Executor := do
  let executor ← executor.borrowMut queue
  let executor ← body executor
  return executor.release queue

/-- The `sleep_list_link` of a task is in a list. -/
def inSleepList (executor : Executor) (task : TaskId) : Bool :=
  executor.sleepQueue.contains task || executor.wfiQueue.contains task

/-- The atomic node of a task is free: it is not pending, and the last pop did not leave it behind
as the head.
-/
def nodeFree (executor : Executor) (task : TaskId) : Bool :=
  !executor.pendingReadyQueue.isLinked task
    && decide (executor.pendingReadyQueue.loadHead () ≠ .item task)

/-- `push_back` to the ready queue. -/
def pushReady (task : TaskId) (executor : Executor) : Except Fault Executor :=
  if executor.readyQueue.contains task then .error .alreadyInList
  else .ok { executor with readyQueue := executor.readyQueue ++ [task] }

/-- `insert_after` the tasks that wake up no later. -/
def insertSleep (task : TaskId) (deadline : Instant) (executor : Executor)
    : Except Fault Executor :=
  if executor.inSleepList task then .error .alreadyInList
  else
    .ok { executor with
      sleepQueue :=
        OrderedInsert.insertPast (fun other => decide (executor.wakeupTime other ≤ deadline)) task
          executor.sleepQueue }

/-- `push_back` to the interrupt-wait queue. -/
def pushWfi (task : TaskId) (executor : Executor) : Except Fault Executor :=
  if executor.inSleepList task then .error .alreadyInList
  else .ok { executor with wfiQueue := executor.wfiQueue ++ [task] }

def spawn (task : TaskId) : Executor → Except Fault Executor := withBorrow .ready (pushReady task)

/-- `RawTask::set_wakeup_time`. -/
def setWakeupTime (task : TaskId) (wakeupTime : Instant) (executor : Executor) : Executor :=
  { executor with wakeupTime := Function.update executor.wakeupTime task wakeupTime }

def taskSleepUntil (task : TaskId) (deadline : Instant) (executor : Executor)
    : Except Fault Executor :=
  (executor.setWakeupTime task deadline).withBorrow .sleep (insertSleep task deadline)

def taskWaitForInterrupt (task : TaskId) : Executor → Except Fault Executor :=
  withBorrow .wfi (pushWfi task)

/-- `resume_task`, which the waker of a task calls, up to its notification of the executor. -/
def resumeTask (fuel : Nat) (task : TaskId) (executor : Executor) : Except Fault Executor :=
  match executor.pendingReadyQueue.pushBack fuel () task with
  | .error fault => .error (.queue fault)
  | .ok pendingReadyQueue => .ok { executor with pendingReadyQueue, notified := true }

/-- The push of one resumed task. The thread executor holds one guard of the ready queue for
the whole transfer, the interrupt executor takes one for each push.
-/
def pushResumed (task : TaskId) (executor : Executor) : Except Fault Executor :=
  match executor.kind with
  | .thread => executor.pushReady task
  | .interrupt => executor.spawn task

/-- The loop of `resume_pending_tasks`, and whether a task became ready. -/
def resumePendingLoop (fuel : Nat) : Nat → Executor → Except Fault (Bool × Executor)
  | 0, _ => .error .diverges
  | rounds + 1, executor =>
      match executor.pendingReadyQueue.popFront fuel () with
      | .error fault => .error (.queue fault)
      | .ok (none, pendingReadyQueue) => .ok (false, { executor with pendingReadyQueue })
      | .ok (some task, pendingReadyQueue) => do
          let executor ← { executor with pendingReadyQueue }.pushResumed task
          let (_, executor) ← executor.resumePendingLoop fuel rounds
          return (true, executor)

/-- `resume_pending_tasks`; the thread executor is told whether to send itself the event. -/
def resumePendingTasks (fuel : Nat) (notifyExecutor : Bool) (executor : Executor)
    : Except Fault Executor :=
  match executor.kind with
  | .thread => do
      let executor ← executor.borrowMut .ready
      let (taskBecameReady, executor) ← executor.resumePendingLoop fuel fuel
      let notified := executor.notified || (taskBecameReady && notifyExecutor)
      return { executor with notified }.release .ready
  | .interrupt => do
      let (_, executor) ← executor.resumePendingLoop fuel fuel
      return executor

/-- The loop of `resume_sleeping_tasks` with the clock reading of each round. Each round
shortens the sleep queue.
-/
def resumeSleepingLoop (clock : Nat → Instant) : Nat → Executor → Except Fault Executor
  | 0, executor => .ok executor
  | rounds + 1, executor =>
      match executor.sleepQueue with
      | [] => .ok executor
      | head :: rest =>
          if executor.wakeupTime head ≤ clock rounds then do
            let executor ← { executor with sleepQueue := rest }.pushResumed head
            executor.resumeSleepingLoop clock rounds
          else
            .ok executor

/-- `resume_sleeping_tasks`. The thread executor reads the clock in each round, the interrupt
executor once.
-/
def resumeSleepingTasks (clock : Nat → Instant) (executor : Executor) : Except Fault Executor :=
  let rounds := executor.sleepQueue.length + 1
  match executor.kind with
  | .thread => executor.withBorrow .ready (withBorrow .sleep (resumeSleepingLoop clock rounds))
  | .interrupt => executor.withBorrow .sleep (resumeSleepingLoop (fun _ => clock 0) rounds)

/-- The loop of `resume_wfi_tasks`, which holds a guard of each of the two queues. -/
def resumeWfiLoop : Nat → Executor → Except Fault Executor
  | 0, executor => .ok executor
  | rounds + 1, executor =>
      match executor.wfiQueue with
      | [] => .ok executor
      | head :: rest => do
          let executor ← { executor with wfiQueue := rest }.pushReady head
          executor.resumeWfiLoop rounds

def resumeWfiTasks (executor : Executor) : Except Fault Executor :=
  executor.withBorrow .wfi (withBorrow .ready (resumeWfiLoop (executor.wfiQueue.length + 1)))

/-- `pop_front` of the ready queue. -/
def popReady (executor : Executor) : Option TaskId × Executor :=
  match executor.readyQueue with
  | [] => (none, executor)
  | task :: rest => (some task, { executor with readyQueue := rest })

end Executor

end Scars
