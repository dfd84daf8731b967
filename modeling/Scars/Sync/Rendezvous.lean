import Scars.Foundation.Monitor
import Scars.Kernel.State

/-! `Rendezvous`: one thread calls `entry`, another calls `accept`.
Two option slots, each under its own mutex, carry the argument and the result. The steps of
the two threads interleave at the boundaries of the mutexes and of the condition variable,
and a wait may end at any time, so `notify_one` changes nothing that the two threads see.
-/

namespace Scars

open Monitor (WaitLoop)

inductive RendezvousParty where
  | entry
  | accept
  deriving DecidableEq, Repr

/-- `Mutex<Option<V>>`. -/
structure RendezvousSlot (V : Type) where
  owner : Option RendezvousParty
  value : Option V

/-- Where the calling thread is in `Entry::entry`. -/
inductive EntryPlace (A R : Type) where
  | outside
  /-- `self.rendezvous.arg.lock()` comes next. -/
  | lockingArg (arg : A)
  /-- `*arg_guard = Some(arg)` comes next. -/
  | providing (arg : A)
  /-- `drop(arg_guard)` comes next. -/
  | unlockingArg
  | notifying
  /-- `self.rendezvous.result.lock()` comes next. -/
  | lockingResult
  /-- In `wait_while(result_guard, |result| result.is_none())`. -/
  | looping (loop : WaitLoop)
  /-- `result_guard.take().unwrap()` comes next. -/
  | taking
  /-- `drop(result_guard)` comes next and the call returns. -/
  | unlockingResult (result : R)

/-- Where the calling thread is in `Accept::accept`. -/
inductive AcceptPlace (A R : Type) where
  | outside
  /-- `self.rendezvous.arg.lock()` comes next. -/
  | lockingArg (closure : A → R)
  /-- In `wait_while(arg_guard, |arg| arg.is_none())`. -/
  | looping (closure : A → R) (loop : WaitLoop)
  /-- `arg_guard.take().unwrap()` comes next. -/
  | taking (closure : A → R)
  /-- `drop(arg_guard)` comes next. -/
  | unlockingArg (closure : A → R) (arg : A)
  /-- The closure is called next. -/
  | computing (closure : A → R) (arg : A)
  /-- `self.rendezvous.result.lock()` comes next. -/
  | lockingResult (result : R)
  /-- `*result_guard = Some(result)` comes next. -/
  | providing (result : R)
  /-- `drop(result_guard)` comes next. -/
  | unlockingResult
  /-- `notify_one` comes next and the call returns. -/
  | notifying

/-- A rendezvous and the two threads that use it. The last four are observers that no step
reads: the arguments of the calls of `entry`, the closures of the calls of `accept`, each
argument taken with the closure of the call that took it, and what `entry` returned.
-/
structure Rendezvous (A R : Type) where
  arg : RendezvousSlot A
  result : RendezvousSlot R
  entry : EntryPlace A R
  accept : AcceptPlace A R
  entered : List A
  accepted : List (A → R)
  consumed : List (A × (A → R))
  returned : List R

inductive RendezvousEvent (A R : Type) where
  | callEntry (arg : A)
  | callAccept (closure : A → R)
  | advance (party : RendezvousParty)

variable {A R : Type}

namespace RendezvousSlot

variable {V : Type}

def lock (party : RendezvousParty) (slot : RendezvousSlot V) : Except Fault (RendezvousSlot V) := do
  let owner ← Monitor.acquire party Fault.notCallable slot.owner
  return { slot with owner }

def unlock (slot : RendezvousSlot V) : RendezvousSlot V := { slot with owner := none }

/-- One step of `wait_while(guard, |value| value.is_none())`. -/
def loopStep (party : RendezvousParty) (loop : WaitLoop) (slot : RendezvousSlot V)
    : Except Fault (Option WaitLoop × RendezvousSlot V) := do
  let (next, owner) ← loop.step party Fault.notCallable slot.value.isNone slot.owner
  return (next, { slot with owner })

/-- `guard.take().unwrap()`. -/
def take (slot : RendezvousSlot V) : Except Fault (V × RendezvousSlot V) :=
  match slot.value with
  | some value => .ok (value, { slot with value := none })
  | none => .error .unwrapNone

end RendezvousSlot

namespace Rendezvous

def start : Rendezvous A R where
  arg := ⟨none, none⟩
  result := ⟨none, none⟩
  entry := .outside
  accept := .outside
  entered := []
  accepted := []
  consumed := []
  returned := []

/-- The next step of `Entry::entry`. -/
def advanceEntry (state : Rendezvous A R) : Except Fault (Rendezvous A R) := do
  match state.entry with
  | .outside => .error .notCallable
  | .lockingArg value =>
      let arg ← state.arg.lock .entry
      return { state with arg, entry := .providing value }
  | .providing value =>
      return { state with arg := { state.arg with value := some value }, entry := .unlockingArg }
  | .unlockingArg => return { state with arg := state.arg.unlock, entry := .notifying }
  | .notifying => return { state with entry := .lockingResult }
  | .lockingResult =>
      let result ← state.result.lock .entry
      return { state with result, entry := .looping .testing }
  | .looping loop =>
      let (next, result) ← state.result.loopStep .entry loop
      match next with
      | some loop => return { state with result, entry := .looping loop }
      | none => return { state with result, entry := .taking }
  | .taking =>
      let (value, result) ← state.result.take
      return { state with result, entry := .unlockingResult value }
  | .unlockingResult value =>
      return { state with
        result := state.result.unlock, entry := .outside, returned := state.returned ++ [value] }

/-- The next step of `Accept::accept`. -/
def advanceAccept (state : Rendezvous A R) : Except Fault (Rendezvous A R) := do
  match state.accept with
  | .outside => .error .notCallable
  | .lockingArg closure =>
      let arg ← state.arg.lock .accept
      return { state with arg, accept := .looping closure .testing }
  | .looping closure loop =>
      let (next, arg) ← state.arg.loopStep .accept loop
      match next with
      | some loop => return { state with arg, accept := .looping closure loop }
      | none => return { state with arg, accept := .taking closure }
  | .taking closure =>
      let (value, arg) ← state.arg.take
      return { state with
        arg, accept := .unlockingArg closure value
        consumed := state.consumed ++ [(value, closure)] }
  | .unlockingArg closure value =>
      return { state with arg := state.arg.unlock, accept := .computing closure value }
  | .computing closure value => return { state with accept := .lockingResult (closure value) }
  | .lockingResult value =>
      let result ← state.result.lock .accept
      return { state with result, accept := .providing value }
  | .providing value =>
      return { state with
        result := { state.result with value := some value }, accept := .unlockingResult }
  | .unlockingResult => return { state with result := state.result.unlock, accept := .notifying }
  | .notifying => return { state with accept := .outside }

def step (state : Rendezvous A R) : RendezvousEvent A R → Except Fault (Rendezvous A R)
  | .callEntry arg =>
      match state.entry with
      | .outside =>
          .ok { state with entry := .lockingArg arg, entered := state.entered ++ [arg] }
      | _ => .error .notCallable
  | .callAccept closure =>
      match state.accept with
      | .outside =>
          .ok { state with
            accept := .lockingArg closure, accepted := state.accepted ++ [closure] }
      | _ => .error .notCallable
  | .advance .entry => state.advanceEntry
  | .advance .accept => state.advanceAccept

end Rendezvous

end Scars
