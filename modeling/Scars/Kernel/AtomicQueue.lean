import Mathlib.Logic.Function.Basic
import Mathlib.Data.List.Basic

/-! The intrusive Michael-Scott queue, executed by one context without interference.
Several queues may link the same items through one node each, as `pending_resume` and
`pending_sleep` do.
-/

namespace Scars

open Function

variable {κ α : Type} [DecidableEq κ] [DecidableEq α]

/-- The address of a node: the sentinel of a queue, or the node embedded in an item. -/
inductive NodePtr (κ α : Type) where
  | sentinel (queue : κ)
  | item (item : α)
  deriving DecidableEq, Repr

/-- `AtomicNode`. Only item nodes are ever linked behind another node. -/
structure AtomicNode (α : Type) where
  owned : Bool := false
  next : Option α := none
  deriving DecidableEq, Repr

/-- Why a queue operation does not return: the two `AtomicQueueError`s, or a retry loop
that used up its fuel.
-/
inductive QueueFault where
  | itemAlreadyInQueue
  | itemNotInQueue
  | outOfFuel
  deriving DecidableEq, Repr

/-- The nodes of all items and sentinels, with the head and tail pointers of the queues.
A pointer is null until the queue is first used.
-/
structure QueueMemory (κ α : Type) where
  node : NodePtr κ α → AtomicNode α
  head : κ → Option (NodePtr κ α)
  tail : κ → Option (NodePtr κ α)

namespace QueueMemory

/-- `AtomicQueue::new` for every queue and `AtomicNode::new` for every item. -/
def new : QueueMemory κ α where
  node := fun _ => {}
  head := fun _ => none
  tail := fun _ => none

/-- `AtomicQueue::init_once`. -/
def initOnce (queue : κ) (memory : QueueMemory κ α) : QueueMemory κ α :=
  let sentinelPtr := NodePtr.sentinel queue
  { memory with
    head := if memory.head queue = none then
        update memory.head queue (some sentinelPtr)
      else
        memory.head
    tail := if memory.tail queue = none then
        update memory.tail queue (some sentinelPtr)
      else
        memory.tail }

/-- Loads `head`; every caller has run `init_once`, so the pointer is not null. -/
def loadHead (queue : κ) (memory : QueueMemory κ α) : NodePtr κ α :=
  (memory.head queue).getD (.sentinel queue)

/-- Loads `tail`, likewise after `init_once`. -/
def loadTail (queue : κ) (memory : QueueMemory κ α) : NodePtr κ α :=
  (memory.tail queue).getD (.sentinel queue)

def storeHead (queue : κ) (ptr : NodePtr κ α) (memory : QueueMemory κ α)
    : QueueMemory κ α :=
  { memory with head := update memory.head queue (some ptr) }

def storeTail (queue : κ) (ptr : NodePtr κ α) (memory : QueueMemory κ α)
    : QueueMemory κ α :=
  { memory with tail := update memory.tail queue (some ptr) }

def storeNext (ptr : NodePtr κ α) (next : Option α) (memory : QueueMemory κ α)
    : QueueMemory κ α :=
  { memory with
    node := update memory.node ptr { memory.node ptr with next := next } }

def storeOwned (ptr : NodePtr κ α) (owned : Bool) (memory : QueueMemory κ α)
    : QueueMemory κ α :=
  { memory with
    node := update memory.node ptr { memory.node ptr with owned := owned } }

/-- `AtomicNode::is_linked` of an item. -/
def isLinked (item : α) (memory : QueueMemory κ α) : Bool :=
  (memory.node (.item item)).owned

/-- `AtomicQueue::is_empty`, with the memory after its `init_once`. -/
def isEmpty (queue : κ) (memory : QueueMemory κ α) : Bool × QueueMemory κ α :=
  let memory := memory.initOnce queue
  ((memory.node (memory.loadHead queue)).next.isNone, memory)

/-- The retry loop of `push_back`. Without interference the reloaded tail is the same and
every compare-exchange succeeds.
-/
def pushLoop (queue : κ) (newNode : α)
    : Nat → QueueMemory κ α → Except QueueFault (QueueMemory κ α)
  | 0, _ => .error .outOfFuel
  | fuel + 1, memory =>
      let tailPtr := memory.loadTail queue
      match (memory.node tailPtr).next with
      | none =>
          .ok ((memory.storeNext tailPtr (some newNode)).storeTail queue (.item newNode))
      | some nextPtr =>
          -- the tail lags behind the last node
          pushLoop queue newNode fuel (memory.storeTail queue (.item nextPtr))

/-- `AtomicQueue::push_back`. -/
def pushBack (fuel : Nat) (queue : κ) (item : α) (memory : QueueMemory κ α)
    : Except QueueFault (QueueMemory κ α) :=
  let memory := memory.initOnce queue
  if memory.isLinked item then
    .error .itemAlreadyInQueue
  else
    pushLoop queue item fuel
      ((memory.storeOwned (.item item) true).storeNext (.item item) none)

/-- The retry loop of `pop_front`. The popped node stays behind as the new head. -/
def popLoop (queue : κ)
    : Nat → QueueMemory κ α → Except QueueFault (Option α × QueueMemory κ α)
  | 0, _ => .error .outOfFuel
  | fuel + 1, memory =>
      let headPtr := memory.loadHead queue
      let tailPtr := memory.loadTail queue
      if headPtr = tailPtr then
        match (memory.node headPtr).next with
        | none => .ok (none, memory)
        | some nextPtr => popLoop queue fuel (memory.storeTail queue (.item nextPtr))
      else
        match (memory.node headPtr).next with
        | none => popLoop queue fuel memory
        | some nextPtr =>
            let memory := memory.storeHead queue (.item nextPtr)
            if memory.isLinked nextPtr then
              .ok (some nextPtr, memory.storeOwned (.item nextPtr) false)
            else
              .error .itemNotInQueue

/-- `AtomicQueue::pop_front`. -/
def popFront (fuel : Nat) (queue : κ) (memory : QueueMemory κ α)
    : Except QueueFault (Option α × QueueMemory κ α) :=
  popLoop queue fuel (memory.initOnce queue)

end QueueMemory

end Scars
