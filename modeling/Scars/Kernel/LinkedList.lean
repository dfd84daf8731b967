import Scars.Foundation.Chains

/-! Intrusive doubly linked lists (`kernel/list.rs`).
Items carry their own links, and lists that share a tag share the nodes. A node is named by its
item: `get_item` and `get_node` are inverse to each other.
-/

namespace Scars

open Function

/-- Why a list operation does not return: the `expect`s of the two ownership changes, or a loop
that used up its fuel.
-/
inductive ListFault where
  /-- "Cannot acquire a node that is already in a list" -/
  | alreadyInList
  /-- "Cannot release a node that is not in the list" -/
  | notInList
  | outOfFuel
  deriving DecidableEq, Repr

/-- The fields of all `LinkedList`s and `Node`s of one tag. A null pointer is `none`. -/
@[ext]
structure ListMemory (κ α : Type) where
  head : κ → Option α
  tail : κ → Option α
  owner : α → Option κ
  next : α → Option α
  prev : α → Option α

namespace ListMemory

variable {κ α : Type}

/-- `LinkedList::new` for every list and `Node::new` for every item. -/
def new : ListMemory κ α where
  head := fun _ => none
  tail := fun _ => none
  owner := fun _ => none
  next := fun _ => none
  prev := fun _ => none

/-- A whole traversal along `next`: `cursor_front`, then `Cursor::next` until it returns none. -/
def traverse (fuel : Nat) (list : κ) (memory : ListMemory κ α) : Option (List α) :=
  Chains.follow memory.next fuel (memory.head list)

/-- A whole traversal along `prev`, from the tail: `CursorMut::move_prev` from the ghost node
until it is reached again.
-/
def traverseBack (fuel : Nat) (list : κ) (memory : ListMemory κ α) : Option (List α) :=
  Chains.follow memory.prev fuel (memory.tail list)

variable [DecidableEq κ] [DecidableEq α]

def replaceHead (list : κ) (head : Option α) (memory : ListMemory κ α) : ListMemory κ α :=
  { memory with head := update memory.head list head }

def replaceTail (list : κ) (tail : Option α) (memory : ListMemory κ α) : ListMemory κ α :=
  { memory with tail := update memory.tail list tail }

def setNext (item : α) (next : Option α) (memory : ListMemory κ α) : ListMemory κ α :=
  { memory with next := update memory.next item next }

def setPrev (item : α) (prev : Option α) (memory : ListMemory κ α) : ListMemory κ α :=
  { memory with prev := update memory.prev item prev }

/-- `Node::take_ownership`. -/
def takeOwnership (list : κ) (item : α) (memory : ListMemory κ α)
    : Except ListFault (ListMemory κ α) :=
  if memory.owner item = none then
    .ok { memory with owner := update memory.owner item (some list) }
  else
    .error .alreadyInList

/-- `Node::release_ownership`. -/
def releaseOwnership (list : κ) (item : α) (memory : ListMemory κ α)
    : Except ListFault (ListMemory κ α) :=
  if memory.owner item = some list then
    .ok { memory with owner := update memory.owner item none }
  else
    .error .notInList

def pushFront (list : κ) (item : α) (memory : ListMemory κ α)
    : Except ListFault (ListMemory κ α) := do
  let memory ← memory.takeOwnership list item
  -- the old head
  let memory :=
    match memory.head list with
    | some head => memory.setPrev head (some item)
    | none => memory
  let memory := memory.setNext item (memory.head list)
  let memory := memory.setPrev item none
  let memory := memory.replaceHead list (some item)
  if memory.tail list = none then
    return memory.replaceTail list (some item)
  else
    return memory

def pushBack (list : κ) (item : α) (memory : ListMemory κ α)
    : Except ListFault (ListMemory κ α) := do
  let memory ← memory.takeOwnership list item
  -- the old tail
  let memory :=
    match memory.tail list with
    | some tail => memory.setNext tail (some item)
    | none => memory
  let memory := memory.setNext item none
  let memory := memory.setPrev item (memory.tail list)
  let memory := memory.replaceTail list (some item)
  if memory.head list = none then
    return memory.replaceHead list (some item)
  else
    return memory

def popFront (list : κ) (memory : ListMemory κ α)
    : Except ListFault (Option α × ListMemory κ α) :=
  let front := memory.head list
  let memory := memory.replaceHead list none
  match front with
  | none => .ok (none, memory)
  | some head => do
      let memory :=
        match memory.next head with
        | some next => (memory.setPrev next none).replaceHead list (some next)
        | none => memory.replaceTail list none
      let memory := (memory.setNext head none).setPrev head none
      let memory ← memory.releaseOwnership list head
      return (some head, memory)

def popFrontIf (list : κ) (predicate : α → Bool) (memory : ListMemory κ α)
    : Except ListFault (Option α × ListMemory κ α) :=
  match memory.head list with
  | some head => if predicate head then memory.popFront list else .ok (none, memory)
  | none => .ok (none, memory)

def remove (list : κ) (item : α) (memory : ListMemory κ α)
    : Except ListFault (ListMemory κ α) :=
  let memory :=
    match memory.prev item with
    | some prev => memory.setNext prev (memory.next item)
    | none => memory.replaceHead list (memory.next item)
  let memory :=
    match memory.next item with
    | some next => memory.setPrev next (memory.prev item)
    | none => memory.replaceTail list (memory.prev item)
  let memory := (memory.setNext item none).setPrev item none
  memory.releaseOwnership list item

/-- `CursorMut::insert_before` at the node `current`, or at the ghost node behind the tail. -/
def insertBefore (list : κ) (current : Option α) (item : α) (memory : ListMemory κ α)
    : Except ListFault (ListMemory κ α) :=
  match current with
  | some current =>
      match memory.prev current with
      | some prev => do
          let memory ← memory.takeOwnership list item
          let memory := memory.setNext prev (some item)
          let memory := memory.setPrev item (some prev)
          let memory := memory.setNext item (some current)
          return memory.setPrev current (some item)
      | none => memory.pushFront list item
  | none => memory.pushBack list item

/-- `CursorMut::move_next`. -/
def moveNext (list : κ) (current : Option α) (memory : ListMemory κ α) : Option α :=
  match current with
  | some current => memory.next current
  | none => memory.head list

/-- The loop of `insert_after`, with the cursor at `current`. -/
def insertAfterLoop (list : κ) (item : α) (predicate : α → Bool) (memory : ListMemory κ α)
    : Nat → Option α → Except ListFault (ListMemory κ α)
  | 0, _ => .error .outOfFuel
  | fuel + 1, current =>
      match current with
      | some listItem =>
          if predicate listItem then
            insertAfterLoop list item predicate memory fuel (memory.moveNext list current)
          else
            memory.insertBefore list current item
      | none => memory.insertBefore list current item

/-- `LinkedList::insert_after`: inserts in front of the first item the predicate is false of. -/
def insertAfter (fuel : Nat) (list : κ) (item : α) (predicate : α → Bool) (memory : ListMemory κ α)
    : Except ListFault (ListMemory κ α) :=
  insertAfterLoop list item predicate memory fuel (memory.head list)

end ListMemory

end Scars
