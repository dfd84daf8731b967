import Scars.Kernel.Notifications

/-! `Condvar`, step by step.
The three steps of `wait_lock` are separate events, so that other threads and interrupt
handlers may run between any two of them.
-/

namespace Scars

open Function

structure Condvar where
  waiterQueue : WaitQueueId
  ceiling : Priority
  deriving DecidableEq, Repr

/-- Where a thread is in `Condvar::wait_lock`. -/
inductive WaitPlace where
  | outside
  /-- The mutex is released; the wait syscall comes next. -/
  | released (condvar : Condvar) (lock : LockId)
  /-- The wait syscall was made; when it returns, the mutex is locked again. -/
  | waiting (condvar : Condvar) (lock : LockId)
  deriving DecidableEq, Repr

/-- The thread released its mutex in a wait on the condition variable. -/
def WaitPlace.isOn (condvar : Condvar) : WaitPlace → Bool
  | .outside => false
  | .released entered _ => entered.waiterQueue == condvar.waiterQueue
  | .waiting entered _ => entered.waiterQueue == condvar.waiterQueue

namespace Op

/-- A blocking or locking call that a thread makes in its own code. -/
def isOwnCall : Op → Bool
  | .delayUntil _ => true
  | .wait _ _ => true
  | .waitEvent _ _ => true
  | .lock _ => true
  | .unlock _ => true
  | _ => false

end Op

namespace Kernel

/-- The loop of `notify_all`. Each round shortens the queue, so `rounds` bounds it by the
queue's length.
-/
def notifyAll (queue : WaitQueueId) : Nat → Kernel → Except Fault Kernel
  | 0, _ => .error .diverges
  | rounds + 1, kernel =>
      match kernel.waitQueue queue with
      | [] => .ok kernel
      | _ :: _ => do
          let kernel ← kernel.notifyNext queue
          kernel.notifyAll queue rounds

end Kernel

/-- The kernel, and where each thread is in its wait. -/
structure Monitors where
  kernel : Kernel
  place : ThreadId → WaitPlace
  /-- An observer that no step reads: since the thread last released its mutex, a
  notification was executed and found no other waiter in the queue.
  -/
  answered : ThreadId → Bool

inductive MonitorEvent where
  /-- The current thread enters `wait_lock` and releases its mutex. -/
  | unlock (condvar : Condvar) (lock : LockId)
  /-- The current thread makes the wait syscall. -/
  | wait
  /-- The wait syscall of the current thread has returned and it takes its mutex back. -/
  | relock
  /-- A thread or an interrupt handler notifies one waiter. -/
  | notifyOne (condvar : Condvar)
  | notifyAll (condvar : Condvar)
  /-- Anything else that threads, interrupt handlers and the scheduler do. -/
  | other (op : Op)
  deriving DecidableEq, Repr

namespace Monitors

def start (program : Program) : Monitors where
  kernel := Kernel.start program
  place := fun _ => .outside
  answered := fun _ => false

/-- The waits a notification answers when it is executed now. -/
def answer (condvar : Condvar) (state : Monitors) (thread : ThreadId) : Bool :=
  state.answered thread
    || (state.place thread).isOn condvar
      && (state.kernel.waitQueue condvar.waiterQueue).all (· == .thread thread)

def step (fuel : Nat) (state : Monitors) : MonitorEvent → Except Fault Monitors
  | .unlock condvar lock =>
      let current := state.kernel.currentThread
      match state.place current with
      | .outside => do
          let kernel ← state.kernel.perform fuel (.unlock lock)
          return {
            kernel
            place := update state.place current (.released condvar lock)
            answered := update state.answered current false
          }
      | _ => .error .notCallable
  | .wait =>
      let current := state.kernel.currentThread
      match state.place current with
      | .released condvar lock => do
          let kernel ← state.kernel.perform fuel (.wait condvar.waiterQueue condvar.ceiling)
          return { state with
            kernel
            place := update state.place current (.waiting condvar lock) }
      | _ => .error .notCallable
  | .relock =>
      let current := state.kernel.currentThread
      match state.place current with
      | .waiting _ lock => do
          let kernel ← state.kernel.perform fuel (.lock lock)
          return { state with
            kernel
            place := update state.place current .outside }
      | _ => .error .notCallable
  | .notifyOne condvar => do
      let kernel ← state.kernel.perform fuel (.notifyNext condvar.waiterQueue)
      return { state with kernel, answered := state.answer condvar }
  | .notifyAll condvar => do
      let rounds := (state.kernel.waitQueue condvar.waiterQueue).length + 1
      let kernel ← state.kernel.notifyAll condvar.waiterQueue rounds
      return { state with kernel, answered := state.answer condvar }
  | .other op =>
      -- a thread inside `wait_lock` makes no other call of its own
      if state.kernel.sparesWaiters op
          && (state.place state.kernel.currentThread == .outside || !op.isOwnCall) then do
        let kernel ← state.kernel.perform fuel op
        return { state with kernel }
      else
        .error .notCallable

/-- No thread whose wait was answered is in a wait queue. -/
def Delivered (state : Monitors) : Prop :=
  ∀ thread,
    state.answered thread = true → ∀ queue, .thread thread ∉ state.kernel.waitQueue queue

/-- If the queue is empty, no thread is between the release of its mutex and its wait
syscall on the condition variable.
-/
def NobodyLate (state : Monitors) (condvar : Condvar) : Prop :=
  state.kernel.waitQueue condvar.waiterQueue = []
  → ∀ thread entered lock,
      state.place thread = .released entered lock
      → entered.waiterQueue ≠ condvar.waiterQueue

/-- Notifications are executed only when nobody is late for them. -/
def InTime (state : Monitors) : MonitorEvent → Prop
  | .notifyOne condvar => state.NobodyLate condvar
  | .notifyAll condvar => state.NobodyLate condvar
  | _ => True

end Monitors

end Scars
