import Scars.Kernel.State

/-! `FIFO`, the ring buffer of a channel.
A slot is empty until it is written and again once its value has been moved out.
-/

namespace Scars

/-- `FIFO<T, CAPACITY>`. -/
structure Fifo (T : Type) where
  capacity : Nat
  /-- Where new data can be written, unless full. -/
  head : Nat := 0
  /-- Where data can be read from, unless empty. -/
  tail : Nat := 0
  used : Nat := 0
  slots : Nat → Option T := fun _ => none

namespace Fifo

variable {T : Type}

/-- `push_to_slice`. -/
def push (item : T) (fifo : Fifo T) : Bool × Fifo T :=
  if fifo.used = fifo.capacity then
    (false, fifo)
  else
    (true, { fifo with
      slots := Function.update fifo.slots fifo.head (some item)
      head := (fifo.head + 1) % fifo.capacity
      used := fifo.used + 1 })

/-- `pop_from_slice`. -/
def pop (fifo : Fifo T) : Except Fault (Option T × Fifo T) :=
  if fifo.used = 0 then
    .ok (none, fifo)
  else
    match fifo.slots fifo.tail with
    | none => .error .uninitialisedRead
    | some item =>
        .ok (some item, { fifo with
          slots := Function.update fifo.slots fifo.tail none
          tail := (fifo.tail + 1) % fifo.capacity
          used := fifo.used - 1 })

def isEmpty (fifo : Fifo T) : Bool := fifo.used == 0

def isFull (fifo : Fifo T) : Bool := fifo.used == fifo.capacity

def free (fifo : Fifo T) : Nat := fifo.capacity - fifo.used

variable {fifo fifo' : Fifo T}

theorem pop_ok {item : Option T} (popped : fifo.pop = .ok (item, fifo'))
    : fifo'.capacity = fifo.capacity
      ∧ ((fifo.used = 0 ∧ item = none ∧ fifo'.used = 0)
        ∨ (0 < fifo.used ∧ item.isSome = true ∧ fifo'.used = fifo.used - 1)) := by
  unfold pop at popped
  split at popped
  next empty => cases popped; exact ⟨rfl, Or.inl ⟨empty, rfl, empty⟩⟩
  next filled =>
    split at popped
    · cases popped
    · cases popped
      exact ⟨rfl, Or.inr ⟨Nat.pos_of_ne_zero filled, rfl, rfl⟩⟩

theorem push_eq (item : T) (notFull : fifo.isFull = false)
    : (fifo.push item).2.capacity = fifo.capacity
      ∧ (fifo.push item).2.used = fifo.used + 1 := by
  have room : fifo.used ≠ fifo.capacity := by simpa [isFull] using notFull
  simp [push, room]

end Fifo

end Scars
