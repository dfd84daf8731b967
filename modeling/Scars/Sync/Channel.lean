import Scars.Sync.Fifo
import Scars.Foundation.AtLeast
import Scars.Sync.Condvar

/-! `Channel`: the calls of senders and receivers, step by step.
A call locks the FIFO, waits on its condition variable while it cannot proceed, moves one
item, notifies one waiter of the other side and drops the guard. The test of the condition
and the access that follows it are one step, since both happen under the lock.
-/

namespace Scars

open Runs

inductive ChannelCall (T : Type) where
  | recv
  | tryRecv
  | send (item : T)
  | trySend (item : T)

/-- What a call returns: `TryRecvError::Empty` and `TrySendError::Full` are the last two. -/
inductive ChannelResult (T : Type) where
  | received (item : T)
  | sent
  | empty
  | full (item : T)

/-- Who waits on a condition variable of the channel. -/
inductive ChannelSide where
  | receivers
  | senders
  deriving DecidableEq, Repr

/-- The mutex and the condition variables of a channel. -/
structure ChannelParts where
  fifoLock : LockId
  receivers : Condvar
  senders : Condvar
  distinct : receivers.waiterQueue ≠ senders.waiterQueue

/-- Where a thread is in a call of the channel. -/
inductive ChannelPlace (T : Type) where
  | outside
  /-- The lock is held and the condition is tested next; `woken` after a wait. -/
  | testing (call : ChannelCall T) (woken : Bool)
  /-- Inside `wait_lock`. -/
  | waiting (call : ChannelCall T)
  /-- The item was moved; `notify_one` comes next. -/
  | notifying (side : ChannelSide) (result : ChannelResult T)
  /-- The guard is dropped next. -/
  | returning (result : ChannelResult T)

def ChannelPlace.isOutside {T : Type} : ChannelPlace T → Bool
  | .outside => true
  | _ => false

/-- A channel with the threads that use it. -/
structure Channel (T : Type) where
  monitors : Monitors
  fifo : Fifo T
  place : ThreadId → ChannelPlace T

inductive ChannelEvent (T : Type) where
  /-- The current thread calls the channel and locks the FIFO. -/
  | call (call : ChannelCall T)
  /-- The current thread takes the next step of its call. -/
  | advance
  /-- An interrupt handler calls the channel. Until the call is over only handlers above the
  ceiling run, and they do not call it.
  -/
  | interrupt (call : ChannelCall T)
  /-- Anything else that threads, interrupt handlers and the scheduler do. -/
  | other (op : Op)

variable {T : Type}

def ChannelParts.condvar (parts : ChannelParts) : ChannelSide → Condvar
  | .receivers => parts.receivers
  | .senders => parts.senders

/-- The side a call belongs to. -/
def ChannelCall.side : ChannelCall T → ChannelSide
  | .recv => .receivers
  | .tryRecv => .receivers
  | .send _ => .senders
  | .trySend _ => .senders

/-- What a side waits for: items to receive, or free places to send to. -/
def Fifo.available (fifo : Fifo T) : ChannelSide → Nat
  | .receivers => fifo.used
  | .senders => fifo.free

theorem Fifo.available_of_isEmpty {fifo : Fifo T} (empty : fifo.isEmpty = true)
    : fifo.available .receivers = 0 := by
  simpa [available, isEmpty] using empty

theorem Fifo.available_of_isFull {fifo : Fifo T} (full : fifo.isFull = true)
    : fifo.available .senders = 0 := by
  have used : fifo.used = fifo.capacity := by simpa [isFull] using full
  simp [available, free, used]

namespace Channel

def start (program : Program) (capacity : Nat) : Channel T where
  monitors := Monitors.start program
  fifo := { capacity }
  place := fun _ => .outside

abbrev current (state : Channel T) : ThreadId := state.monitors.kernel.currentThread

/-- The current thread goes on at another place. -/
def goOn (place : ChannelPlace T) (state : Channel T) : Channel T :=
  { state with place := Function.update state.place state.current place }

/-- An event of the kernel and the condition variables. -/
def monitorStep (fuel : Nat) (event : MonitorEvent) (place : ChannelPlace T) (state : Channel T)
    : Except Fault (Channel T) := do
  let monitors ← state.monitors.step fuel event
  return { state.goOn place with monitors }

/-- `fifo_guard.pop().unwrap()`, before a waiting sender is notified. -/
def take (state : Channel T) : Except Fault (Channel T) := do
  let (popped, fifo) ← state.fifo.pop
  match popped with
  | none => .error .unwrapNone
  | some item => return { state.goOn (.notifying .senders (.received item)) with fifo }

/-- `fifo_guard.push(item)`, whose result is ignored, before a waiting receiver is notified. -/
def put (item : T) (state : Channel T) : Channel T :=
  { state.goOn (.notifying .receivers .sent) with fifo := (state.fifo.push item).2 }

/-- The test of `recv`, `try_recv`, `send` and `try_send`, and what follows under the lock. -/
def test (parts : ChannelParts) (fuel : Nat) (call : ChannelCall T) (state : Channel T)
    : Except Fault (Channel T) :=
  match call with
  | .recv =>
      if state.fifo.isEmpty then
        state.monitorStep fuel (.unlock parts.receivers parts.fifoLock) (.waiting call)
      else
        state.take
  | .tryRecv =>
      if state.fifo.isEmpty then .ok (state.goOn (.returning .empty)) else state.take
  | .send item =>
      if state.fifo.isFull then
        state.monitorStep fuel (.unlock parts.senders parts.fifoLock) (.waiting call)
      else
        .ok (state.put item)
  | .trySend item =>
      if state.fifo.isFull then
        .ok (state.goOn (.returning (.full item)))
      else
        .ok (state.put item)

/-- The next step of the current thread. -/
def advance (parts : ChannelParts) (fuel : Nat) (state : Channel T)
    : Except Fault (Channel T) :=
  match state.place state.current with
  | .outside => .error .notCallable
  | .testing call _ => state.test parts fuel call
  | .waiting call =>
      match state.monitors.place state.current with
      | .outside => .error .notCallable
      | .released _ _ => state.monitorStep fuel .wait (.waiting call)
      | .waiting _ _ => state.monitorStep fuel .relock (.testing call true)
  | .notifying side result =>
      state.monitorStep fuel (.notifyOne (parts.condvar side)) (.returning result)
  | .returning _ => state.monitorStep fuel (.other (.unlock parts.fifoLock)) .outside

/-- The call of an interrupt handler, from the lock of the FIFO to the drop of its guard. -/
def handle (parts : ChannelParts) (fuel : Nat) (call : ChannelCall T) (state : Channel T)
    : Except Fault (Channel T) :=
  if (state.monitors.kernel.lock parts.fifoLock).owner ≠ none then
    .error .alreadyInList
  else
    match call with
    | .recv => .error .interruptHandlerViolation
    | .send _ => .error .interruptHandlerViolation
    | .tryRecv =>
        if state.fifo.isEmpty then
          .ok state
        else do
          let taken ← state.take
          let monitors ← state.monitors.step fuel (.notifyOne parts.senders)
          return { state with monitors, fifo := taken.fifo }
    | .trySend item =>
        if state.fifo.isFull then
          .ok state
        else do
          let monitors ← state.monitors.step fuel (.notifyOne parts.receivers)
          return { state with monitors, fifo := (state.fifo.push item).2 }

def step (parts : ChannelParts) (fuel : Nat) (state : Channel T)
    : ChannelEvent T → Except Fault (Channel T)
  | .call call =>
      match state.place state.current with
      | .outside => state.monitorStep fuel (.other (.lock parts.fifoLock)) (.testing call false)
      | _ => .error .notCallable
  | .advance => state.advance parts fuel
  | .interrupt call => state.handle parts fuel call
  | .other op =>
      -- a thread inside a channel call makes no other call of its own
      if op.isOwnCall && !(state.place state.current).isOutside then
        .error .notCallable
      else do
        let monitors ← state.monitors.step fuel (.other op)
        return { state with monitors }

/-- A notification is on its way to the waiting side in this thread: it is about to call
`notify_one`, or it was notified and has not tested its condition yet.
-/
inductive UnderWay (side : ChannelSide) (state : Channel T) (thread : ThreadId) : Prop
  | sent (result : ChannelResult T) (place : state.place thread = .notifying side result)
  | taken (call : ChannelCall T) (place : state.place thread = .waiting call)
    (mine : call.side = side) (condvar : Condvar) (lock : LockId)
    (inside : state.monitors.place thread = .waiting condvar lock)
    (free : state.monitors.kernel.waitOwner (.thread thread) = none)
  | woken (call : ChannelCall T) (place : state.place thread = .testing call true)
    (mine : call.side = side)

/-- While threads of a side are blocked in its queue, at least as many notifications are
under way to it as there are items to receive, or free places to send to.
-/
def Served (parts : ChannelParts) (state : Channel T) : Prop :=
  ∀ side,
    state.monitors.kernel.waitQueue (parts.condvar side).waiterQueue ≠ []
    → AtLeast (state.fifo.available side) (state.UnderWay side)

/-- The notifications of the channel are executed only when nobody is late for them. -/
def InTime (parts : ChannelParts) (state : Channel T) : ChannelEvent T → Prop
  | .advance =>
      ∀ side result,
        state.place state.current = .notifying side result
        → state.monitors.NobodyLate (parts.condvar side)
  | .interrupt .tryRecv => state.fifo.isEmpty = false → state.monitors.NobodyLate parts.senders
  | .interrupt (.trySend _) => state.fifo.isFull = false → state.monitors.NobodyLate parts.receivers
  | _ => True

end Channel

end Scars
