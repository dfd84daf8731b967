import Scars.Foundation.Monitor
import Scars.Sync.Channel
import Scars.Sync.FifoContents

/-! What a channel delivers.
Any contexts call the channel and their steps interleave at the boundaries of the mutex and
of the condition variables. The mutex excludes, and a wait may end at any time.
-/

namespace Scars

open Monitor (WaitLoop)

variable {κ T : Type}

/-- A call that waits until it can proceed, where the others return an error. -/
def ChannelCall.waits : ChannelCall T → Bool
  | .recv => true
  | .tryRecv => false
  | .send _ => true
  | .trySend _ => false

/-- The condition under which a call cannot proceed. -/
def Fifo.blocks (fifo : Fifo T) (call : ChannelCall T) : Bool :=
  match call.side with
  | .receivers => fifo.isEmpty
  | .senders => fifo.isFull

/-- What a call may return. -/
def ChannelCall.mayReturn : ChannelCall T → ChannelResult T → Prop
  | .recv, result => ∃ item, result = .received item
  | .tryRecv, result => result = .empty ∨ ∃ item, result = .received item
  | .send _, result => result = .sent
  | .trySend item, result => result = .full item ∨ result = .sent

/-- What a call that does not wait returns if it cannot proceed. -/
def ChannelCall.refusal : ChannelCall T → ChannelResult T
  | .recv => .empty
  | .tryRecv => .empty
  | .send item => .full item
  | .trySend item => .full item

/-- Where a context is in a call of the channel. -/
inductive DeliveryPlace (T : Type) where
  | outside
  /-- `self.fifo.lock()` comes next. -/
  | locking (call : ChannelCall T)
  /-- In the `wait_while` of `recv` or `send`. -/
  | looping (call : ChannelCall T) (loop : WaitLoop)
  /-- The guard is held; `try_recv` or `try_send` tests the condition next. -/
  | trying (call : ChannelCall T)
  /-- The guard is held; the item is pushed or popped next. -/
  | moving (call : ChannelCall T)
  /-- The guard is held; a waiter of the other side is notified next. -/
  | notifying (call : ChannelCall T) (result : ChannelResult T)
  /-- The guard is dropped next and the call returns. -/
  | unlocking (call : ChannelCall T) (result : ChannelResult T)

/-- The context has the guard of the FIFO. -/
def DeliveryPlace.inside : DeliveryPlace T → Bool
  | .outside => false
  | .locking _ => false
  | .looping _ loop => loop.inside
  | .trying _ => true
  | .moving _ => true
  | .notifying _ _ => true
  | .unlocking _ _ => true

/-- A call and its result. -/
abbrev ChannelAnswer (T : Type) := ChannelCall T × ChannelResult T

namespace ChannelAnswer

/-- The item that the call returns. -/
def received : ChannelAnswer T → Option T
  | (_, .received item) => some item
  | _ => none

/-- The item of a call that returns without an error. -/
def accepted : ChannelAnswer T → Option T
  | (.send item, .sent) => some item
  | (.trySend item, .sent) => some item
  | _ => none

end ChannelAnswer

/-- The result that the context is about to return. -/
def DeliveryPlace.answer : DeliveryPlace T → Option (ChannelAnswer T)
  | .notifying call result => some (call, result)
  | .unlocking call result => some (call, result)
  | _ => none

/-- The FIFO behind its mutex, with every context that uses it. The calls that have returned
are an observer that no step reads.
-/
structure Delivery (κ T : Type) where
  fifo : Fifo T
  owner : Option κ
  place : κ → DeliveryPlace T
  returned : List (ChannelAnswer T)

inductive DeliveryEvent (κ T : Type) where
  | call (context : κ) (call : ChannelCall T)
  | advance (context : κ)

namespace Delivery

def start (capacity : Nat) : Delivery κ T where
  fifo := { capacity }
  owner := none
  place := fun _ => .outside
  returned := []

/-- What calls returned, or are about to return, in the order of their critical sections. -/
def answered (state : Delivery κ T) : List (ChannelAnswer T) :=
  state.returned ++ (state.owner.bind fun context => (state.place context).answer).toList

variable [DecidableEq κ]

def goOn (context : κ) (place : DeliveryPlace T) (state : Delivery κ T) : Delivery κ T :=
  { state with place := Function.update state.place context place }

/-- `pop().unwrap()` or `push(item)`, whose result is ignored. -/
def move (context : κ) (call : ChannelCall T) (state : Delivery κ T)
    : Except Fault (Delivery κ T) := do
  match call with
  | .recv | .tryRecv =>
      match ← state.fifo.pop with
      | (none, _) => .error .unwrapNone
      | (some item, fifo) =>
          return { state.goOn context (.notifying call (.received item)) with fifo }
  | .send item | .trySend item =>
      return { state.goOn context (.notifying call .sent) with
        fifo := (state.fifo.push item).2 }

/-- The next step of a context inside a call. -/
def advance (context : κ) (state : Delivery κ T) : Except Fault (Delivery κ T) := do
  match state.place context with
  | .outside => .error .notCallable
  | .locking call =>
      let owner ← Monitor.acquire context Fault.notCallable state.owner
      let place := if call.waits then .looping call .testing else .trying call
      return { state.goOn context place with owner }
  | .looping call loop =>
      let blocked := state.fifo.blocks call
      let (next, owner) ← loop.step context Fault.notCallable blocked state.owner
      let place := match next with
        | some loop => .looping call loop
        | none => .moving call
      return { state.goOn context place with owner }
  | .trying call =>
      if state.fifo.blocks call then
        return state.goOn context (.unlocking call call.refusal)
      else
        return state.goOn context (.moving call)
  | .moving call => state.move context call
  | .notifying call result => return state.goOn context (.unlocking call result)
  | .unlocking call result =>
      return { state.goOn context .outside with
        owner := none, returned := state.returned ++ [(call, result)] }

def step (state : Delivery κ T) : DeliveryEvent κ T → Except Fault (Delivery κ T)
  | .call context call =>
      match state.place context with
      | .outside => .ok (state.goOn context (.locking call))
      | _ => .error .notCallable
  | .advance context => state.advance context

end Delivery

end Scars
