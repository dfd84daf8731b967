import Mathlib.Data.Nat.ModEq
import Scars.Sync.Fifo

/-! The ring buffer of a channel as a queue.
The items lie behind one another from the tail on, modulo the capacity; a push appends to
them and a pop takes the first one off.
-/

namespace Scars.Fifo

open Function

variable {T : Type} {fifo fifo' : Fifo T} {items : List T}

/-- The items between the tail and the head, oldest first. -/
def contents (fifo : Fifo T) : List T :=
  (List.range fifo.used).filterMap fun index => fifo.slots ((fifo.tail + index) % fifo.capacity)

/-- The buffer holds the items of a queue. -/
structure Holds (fifo : Fifo T) (items : List T) : Prop where
  used : fifo.used = items.length
  room : items.length ≤ fifo.capacity
  tail : fifo.tail % fifo.capacity = fifo.tail
  head : fifo.head = (fifo.tail + items.length) % fifo.capacity
  slots : ∀ index item, items[index]? = some item
    → fifo.slots ((fifo.tail + index) % fifo.capacity) = some item

theorem holds_new (capacity : Nat) : Holds ({ capacity } : Fifo T) [] where
  used := rfl
  room := Nat.zero_le _
  tail := Nat.zero_mod _
  head := (Nat.zero_mod _).symm
  slots := by simp

/-- Consecutive indices that find the items of a list collect that list, by induction on it. -/
theorem filterMap_range_eq {find : Nat → Option T} {start : Nat}
    (found : ∀ index item, items[index]? = some item → find (start + index) = some item)
    : (List.range' start items.length).filterMap find = items := by
  induction items generalizing start with
  | nil => rfl
  | cons head tail ih =>
      have first : find start = some head := found 0 head rfl
      have later
        : ∀ index item, tail[index]? = some item → find (start + 1 + index) = some item := by
        intro index item here
        rw [Nat.add_assoc, Nat.add_comm 1]
        exact found (index + 1) item here
      rw [List.length_cons, List.range'_succ, List.filterMap_cons_some first, ih later]

theorem Holds.contents_eq (holds : fifo.Holds items) : fifo.contents = items := by
  rw [contents, holds.used, List.range_eq_range']
  refine filterMap_range_eq fun index item found => ?_
  rw [Nat.zero_add]
  exact holds.slots index item found

theorem slot_ne {capacity tail first second : Nat} (below : first < capacity)
    (bound : second < capacity) (hne : first ≠ second)
    : (tail + first) % capacity ≠ (tail + second) % capacity := by
  intro he
  have congruent : first ≡ second [MOD capacity] := Nat.ModEq.add_left_cancel' tail he
  exact hne (Nat.ModEq.eq_of_lt_of_lt congruent below bound)

/-- A push into a buffer with room succeeds and appends the item. Witness: the head is the
slot behind the last item, and less than a turn ahead of every item held.
-/
theorem Holds.push (holds : fifo.Holds items) (item : T) (notFull : items.length < fifo.capacity)
    : (fifo.push item).1 = true ∧ (fifo.push item).2.Holds (items ++ [item]) := by
  have space : fifo.used ≠ fifo.capacity := by rw [holds.used]; omega
  have pushed : fifo.push item = (true, { fifo with
      slots := update fifo.slots fifo.head (some item)
      head := (fifo.head + 1) % fifo.capacity
      used := fifo.used + 1 }) := by
    rw [Fifo.push, if_neg space]
  rw [pushed]
  refine ⟨rfl, ⟨?_, ?_, holds.tail, ?_, ?_⟩⟩
  · simp [holds.used]
  · simpa using Nat.succ_le_of_lt notFull
  · simp only [holds.head, List.length_append, List.length_singleton, Nat.mod_add_mod]
    rw [Nat.add_assoc]
  · intro index other found
    dsimp only
    rw [holds.head]
    by_cases last : index = items.length
    case pos =>
        subst last
        simpa using found
    case neg =>
        have below : index < items.length := by
          have bound := (List.getElem?_eq_some_iff.mp found).1
          simp at bound
          omega
        rw [update_of_ne (slot_ne (by omega) notFull last)]
        exact holds.slots index other (by simpa [List.getElem?_append_left below] using found)

/-- A pop takes the oldest item off. Witness: it lies at the tail, and every other item less
than a turn ahead of it.
-/
theorem Holds.pop {item : T} {rest : List T} (holds : fifo.Holds (item :: rest))
    : ∃ fifo', fifo.pop = .ok (some item, fifo') ∧ fifo'.capacity = fifo.capacity
        ∧ fifo'.Holds rest := by
  have filled : fifo.used ≠ 0 := by simp [holds.used]
  have first : fifo.slots fifo.tail = some item := by
    have found := holds.slots 0 item rfl
    rwa [Nat.add_zero, holds.tail] at found
  have room := holds.room
  simp only [List.length_cons] at room
  have popped : fifo.pop = .ok (some item, { fifo with
      slots := update fifo.slots fifo.tail none
      tail := (fifo.tail + 1) % fifo.capacity
      used := fifo.used - 1 }) := by
    simp [Fifo.pop, filled, first]
  refine ⟨_, popped, rfl, ?_, ?_, ?_, ?_, ?_⟩
  · simp [holds.used]
  · exact Nat.le_of_succ_le room
  · simp
  · simp only [holds.head, List.length_cons, Nat.mod_add_mod]
    rw [Nat.add_assoc, Nat.add_comm 1]
  · intro index other found
    have below := (List.getElem?_eq_some_iff.mp found).1
    have apart : (fifo.tail + (index + 1)) % fifo.capacity ≠ fifo.tail := by
      have turn : (fifo.tail + 0) % fifo.capacity = fifo.tail := holds.tail
      nth_rewrite 2 [← turn]
      exact slot_ne (by omega) (by omega) (by omega)
    dsimp only
    rw [Nat.mod_add_mod, Nat.add_assoc, Nat.add_comm 1, update_of_ne apart]
    exact holds.slots (index + 1) other (by simpa using found)

end Scars.Fifo
