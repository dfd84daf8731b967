import Scars.Kernel.ActivePriority
import Scars.Sync.Condvar

/-! The guards of ceiling locks and mutexes, and the calls that give them up for a while.
A guard is a value: which context made it says nothing about whether its lock is still held.
Calls are taken step by step, so that everything else may run between two steps.
-/

namespace Scars

open Runs

/-- The name of a guard. -/
abbrev GuardId := Nat

/-- `RawCeilingLockGuard`, `CeilingLockGuard` and `MutexGuard`. -/
inductive GuardKind where
  | raw
  | ceiling
  | mutex
  deriving DecidableEq, Repr

/-- The waits of `Condvar`. -/
inductive WaitCall where
  | wait
  | waitWhile
  | asyncWait
  | asyncWaitWhile
  deriving DecidableEq, Repr

def WaitCall.isAsync : WaitCall → Bool
  | .wait => false
  | .waitWhile => false
  | .asyncWait => true
  | .asyncWaitWhile => true

/-- The call tests its condition before each wait. -/
def WaitCall.loops : WaitCall → Bool
  | .wait => false
  | .waitWhile => true
  | .asyncWait => false
  | .asyncWaitWhile => true

/-- What becomes of a guard next. -/
inductive GuardPlace where
  /-- The call that the guard came from has returned. -/
  | returned
  /-- `Unlock::unlock` was called on it. -/
  | unlocked
  /-- The loop tests its condition. -/
  | testing (call : WaitCall) (condvar : Condvar)
  /-- The lock is released. -/
  | entered (call : WaitCall) (condvar : Condvar)
  /-- The caller waits in the queue. -/
  | released (call : WaitCall) (condvar : Condvar)
  /-- When the wait is over the lock is taken back. -/
  | waiting (call : WaitCall) (condvar : Condvar)
  deriving DecidableEq, Repr

structure Guard where
  /-- The context that last took the lock through the guard. -/
  context : ExecutionContext
  lock : LockId
  kind : GuardKind
  place : GuardPlace := .returned
  deriving DecidableEq, Repr

/-- The locks and the guards that are alive. -/
structure Guarding extends Locking where
  guard : GuardId → Option Guard

inductive GuardEvent where
  /-- `lock` in a context. -/
  | lock (id : GuardId) (context : ExecutionContext) (lock : LockId) (kind : GuardKind)
  | unlock (id : GuardId) (context : ExecutionContext)
  | relock (id : GuardId) (context : ExecutionContext)
  | drop (id : GuardId) (context : ExecutionContext)
  /-- A wait of `Condvar` is called with a guard. -/
  | call (id : GuardId) (context : ExecutionContext) (call : WaitCall) (condvar : Condvar)
  /-- The call takes its next step, with the value of its condition. -/
  | advance (id : GuardId) (condition : Bool)
  /-- Anything else that threads, interrupt handlers and the scheduler do. -/
  | other (event : Locking.Event)
  deriving DecidableEq, Repr

namespace Locking

/-- The call of the current thread that a lock operation is. -/
def threadOp : LockOp → Op
  | .lock lock => .lock lock
  | .unlock lock => .unlock lock
  | .enter ceiling => .enterSection ceiling
  | .leave => .leaveSection

/-- The event that a lock operation is in a context. -/
def eventIn : ExecutionContext → LockOp → Event
  | .thread _, op => .kernel (threadOp op)
  | .interrupt handler, op => .handler handler op

/-- Whether the context is the one that executes; a handler may always interrupt. -/
def isExecuting (locking : Locking) : ExecutionContext → Bool
  | .thread thread => thread == locking.currentThread
  | .interrupt _ => true

/-- `acquire_scoped_lock`, `release_scoped_lock` and the sections of a context. -/
def performIn (fuel : Nat) (context : ExecutionContext) (op : LockOp) (locking : Locking)
    : Except Fault Locking :=
  if locking.isExecuting context then locking.perform fuel (eventIn context op)
  else .error .notCallable

/-- A lock is taken by a guard that is dropped at the end of the statement. -/
def lockTemporarily (fuel : Nat) (context : ExecutionContext) (lock : LockId) (locking : Locking)
    : Except Fault Locking := do
  let locking ← locking.performIn fuel context (.lock lock)
  locking.performIn fuel context (.unlock lock)

/-- Whether the event takes or releases a scoped lock, which only guards do. -/
def isGuarded : Event → Bool
  | .kernel (.lock _) => true
  | .kernel (.unlock _) => true
  | .handler _ (.lock _) => true
  | .handler _ (.unlock _) => true
  | _ => false

end Locking

namespace Guarding

def start (program : Program) : Guarding where
  toLocking := Locking.start program
  guard := fun _ => none

def setGuard (id : GuardId) (guard : Option Guard) (locking : Locking) (state : Guarding)
    : Guarding :=
  { toLocking := locking, guard := Function.update state.guard id guard }

/-- `Unlock::relock`. That of a `CeilingLockGuard` is `self.raw.lock();`. -/
def relockGuard (fuel : Nat) (context : ExecutionContext) (guard : Guard) (locking : Locking)
    : Except Fault Locking :=
  match guard.kind with
  | .ceiling => locking.lockTemporarily fuel context guard.lock
  | _ => locking.performIn fuel context (.lock guard.lock)

/-- The end of a wait: `wait_lock` relocks the guard, `async_wait` does `raw.lock();`. -/
def takeBack (fuel : Nat) (call : WaitCall) (guard : Guard) (locking : Locking)
    : Except Fault Locking :=
  if call.isAsync then locking.lockTemporarily fuel guard.context guard.lock
  else locking.performIn fuel guard.context (.lock guard.lock)

/-- The wait itself. Whether a task is ready again is up to the schedule. -/
def enqueue (fuel : Nat) (call : WaitCall) (condvar : Condvar) (guard : Guard) (locking : Locking)
    : Except Fault Locking :=
  if call.isAsync then .ok locking
  else if locking.isExecuting guard.context then
    locking.perform fuel (.kernel (.wait condvar.waiterQueue condvar.ceiling))
  else .error .notCallable

/-- The next step of a call with a guard, and where it leads. -/
def advance (fuel : Nat) (condition : Bool) (guard : Guard) (locking : Locking)
    : Except Fault (GuardPlace × Locking) :=
  match guard.place with
  | .testing call condvar =>
      .ok (if condition then .entered call condvar else .returned, locking)
  | .entered call condvar => do
      let locking ← locking.performIn fuel guard.context (.unlock guard.lock)
      return (.released call condvar, locking)
  | .released call condvar => do
      let locking ← enqueue fuel call condvar guard locking
      return (.waiting call condvar, locking)
  | .waiting call condvar => do
      let locking ← takeBack fuel call guard locking
      return (if call.loops then .testing call condvar else .returned, locking)
  | _ => .error .notCallable

/-- Where a call starts. A thread may wait, an interrupt handler only asynchronously. -/
def callPlace (context : ExecutionContext) (call : WaitCall) (condvar : Condvar)
    : Except Fault GuardPlace :=
  match context, call with
  | .interrupt _, .wait => .error .interruptHandlerViolation
  | .interrupt _, .waitWhile => .error .interruptHandlerViolation
  | _, _ => .ok (if call.loops then .testing call condvar else .entered call condvar)

/-- A guard can be dropped by its owner, or with the future of an asynchronous wait. -/
def mayDrop (guard : Guard) : Bool :=
  match guard.place with
  | .returned => true
  | .unlocked => true
  | .waiting call _ => call.isAsync
  | _ => false

def step (fuel : Nat) (state : Guarding) : GuardEvent → Except Fault Guarding
  | .lock id context lock kind =>
      match state.guard id with
      | some _ => .error .notCallable
      | none => do
          let locking ← state.performIn fuel context (.lock lock)
          return state.setGuard id (some { context, lock, kind }) locking
  | .unlock id context =>
      match state.guard id with
      | some guard =>
          if guard.kind ≠ .mutex then do
            let locking ← state.performIn fuel context (.unlock guard.lock)
            return state.setGuard id (some { guard with place := .unlocked }) locking
          else .error .notCallable
      | none => .error .notCallable
  | .relock id context =>
      match state.guard id with
      | some guard =>
          if guard.kind ≠ .mutex then do
            let locking ← relockGuard fuel context guard state.toLocking
            return state.setGuard id (some { guard with context, place := .returned }) locking
          else .error .notCallable
      | none => .error .notCallable
  | .drop id context =>
      match state.guard id with
      | some guard =>
          if mayDrop guard then do
            let locking ← state.performIn fuel context (.unlock guard.lock)
            return state.setGuard id none locking
          else .error .notCallable
      | none => .error .notCallable
  | .call id context call condvar =>
      match state.guard id with
      | some guard =>
          if guard.kind = .mutex ∧ guard.place = .returned ∧ guard.context = context then do
            let place ← callPlace context call condvar
            return state.setGuard id (some { guard with place }) state.toLocking
          else .error .notCallable
      | none => .error .notCallable
  | .advance id condition =>
      match state.guard id with
      | some guard => do
          let (place, locking) ← advance fuel condition guard state.toLocking
          return state.setGuard id (some { guard with place }) locking
      | none => .error .notCallable
  | .other event =>
      if Locking.isGuarded event then .error .notCallable
      else do
        let locking ← state.perform fuel event
        return { state with toLocking := locking }

end Guarding

end Scars
