import Scars.Foundation.Answers
import Scars.Sync.FifoContents

/-! The ring buffer with every check that the source leaves to the compiler or to its callers.
An access outside of the array, a remainder by zero, a write over a live item and a read of a
slot without one are faults; a buffer that represents a queue meets none of them.
-/

namespace Scars

open Runs Answers

/-- What must not happen to a slice of `MaybeUninit` slots. -/
inductive SliceFault where
  | outOfBounds
  | divisionByZero
  | overwritesLive
  | uninitialisedRead
  deriving DecidableEq, Repr

/-- `FIFO<T, CAPACITY>` with its array. A slot is empty until it is written and again once its
item has been moved out.
-/
structure RingBuffer (T : Type) (capacity : Nat) where
  /-- Where new data can be written, unless full. -/
  head : Nat := 0
  /-- Where data can be read from, unless empty. -/
  tail : Nat := 0
  used : Nat := 0
  fifo : Vector (Option T) capacity := Vector.replicate capacity none

namespace RingBuffer

variable {T : Type} {capacity len : Nat} {fifo : Vector (Option T) len} {item : T}

/-- `MaybeUninit::write` at an index. -/
def writeSlot (fifo : Vector (Option T) len) (index : Nat) (item : T)
    : Except SliceFault (Vector (Option T) len) :=
  if bound : index < len then
    if fifo[index].isSome then
      .error .overwritesLive
    else
      .ok (fifo.set index (some item) bound)
  else
    .error .outOfBounds

/-- `MaybeUninit::assume_init_read` at an index; the item leaves the slot. -/
def readSlot (fifo : Vector (Option T) len) (index : Nat)
    : Except SliceFault (T × Vector (Option T) len) :=
  if bound : index < len then
    match fifo[index] with
    | none => .error .uninitialisedRead
    | some item => .ok (item, fifo.set index none bound)
  else
    .error .outOfBounds

def remainder (dividend divisor : Nat) : Except SliceFault Nat :=
  if divisor = 0 then .error .divisionByZero else .ok (dividend % divisor)

/-- `push_to_slice`, with the new values of `head`, `used` and the slice. -/
def pushToSlice (head used : Nat) (fifo : Vector (Option T) len) (item : T)
    : Except SliceFault (Bool × Nat × Nat × Vector (Option T) len) :=
  if used = len then
    .ok (false, head, used, fifo)
  else do
    let fifo ← writeSlot fifo head item
    let head ← remainder (head + 1) len
    return (true, head, used + 1, fifo)

/-- `pop_from_slice`, with the new values of `tail`, `used` and the slice. -/
def popFromSlice (tail used : Nat) (fifo : Vector (Option T) len)
    : Except SliceFault (Option T × Nat × Nat × Vector (Option T) len) :=
  if used = 0 then
    .ok (none, tail, used, fifo)
  else do
    let (item, fifo) ← readSlot fifo tail
    let tail ← remainder (tail + 1) len
    return (some item, tail, used - 1, fifo)

def push (item : T) (ring : RingBuffer T capacity)
    : Except SliceFault (Bool × RingBuffer T capacity) := do
  let (pushed, head, used, fifo) ← pushToSlice ring.head ring.used ring.fifo item
  return (pushed, { ring with head, used, fifo })

def pop (ring : RingBuffer T capacity)
    : Except SliceFault (Option T × RingBuffer T capacity) := do
  let (item, tail, used, fifo) ← popFromSlice ring.tail ring.used ring.fifo
  return (item, { ring with tail, used, fifo })

/-- `FIFO::drop`: pops until nothing comes out, with the items that were dropped; no result
within this many rounds means that it did not end by then.
-/
def drop : Nat → RingBuffer T capacity
    → Except SliceFault (Option (List T × RingBuffer T capacity))
  | 0, _ => .ok none
  | rounds + 1, ring => do
      let (item, ring) ← ring.pop
      match item with
      | none => return some ([], ring)
      | some item =>
          let rest ← drop rounds ring
          return rest.map fun (items, ring) => (item :: items, ring)

theorem writeSlot_empty {index : Nat} (empty : fifo[index]? = some none) (item : T)
    : ∃ fifo',
        writeSlot fifo index item = .ok fifo'
        ∧ ∀ other,
            fifo'[other]? = if other = index then some (some item) else fifo[other]? := by
  obtain ⟨bound, free⟩ := Vector.getElem?_eq_some_iff.mp empty
  refine ⟨fifo.set index (some item) bound, ?_, fun other => ?_⟩
  · simp [writeSlot, bound, free]
  · rw [Vector.getElem?_set]
    simp only [eq_comm (a := index)]

theorem readSlot_live {index : Nat} (live : fifo[index]? = some (some item))
    : ∃ fifo',
        readSlot fifo index = .ok (item, fifo')
        ∧ ∀ other, fifo'[other]? = if other = index then some none else fifo[other]? := by
  obtain ⟨bound, found⟩ := Vector.getElem?_eq_some_iff.mp live
  refine ⟨fifo.set index none bound, ?_, fun other => ?_⟩
  · simp [readSlot, bound, found]
  · rw [Vector.getElem?_set]
    simp only [eq_comm (a := index)]

theorem remainder_pos {divisor : Nat} (positive : 0 < divisor) (dividend : Nat)
    : remainder dividend divisor = .ok (dividend % divisor) :=
  if_neg (Nat.ne_of_gt positive)

/-- The buffer represents a queue: the items lie behind one another from the tail on, and all
other slots are empty.
-/
structure Represents (ring : RingBuffer T capacity) (items : List T) : Prop where
  used : ring.used = items.length
  room : items.length ≤ capacity
  tail : ring.tail % capacity = ring.tail
  head : ring.head = (ring.tail + items.length) % capacity
  slots
    : ∀ offset < capacity, ring.fifo[(ring.tail + offset) % capacity]? = some items[offset]?

variable {ring : RingBuffer T capacity} {items : List T}

theorem represents_new : Represents ({} : RingBuffer T capacity) [] where
  used := rfl
  room := Nat.zero_le _
  tail := Nat.zero_mod _
  head := (Nat.zero_mod _).symm
  slots offset inside := by
    have bound : (0 + offset) % capacity < capacity := Nat.mod_lt _ (by omega)
    exact Vector.getElem?_eq_some_iff.mpr ⟨bound, by simp⟩

theorem getElem?_append_singleton_of_ne {offset : Nat} (other : offset ≠ items.length)
    : (items ++ [item])[offset]? = items[offset]? := by
  rcases Nat.lt_or_gt_of_ne other with before | behind
  · exact List.getElem?_append_left before
  · rw [List.getElem?_eq_none (by simpa using Nat.succ_le_of_lt behind),
      List.getElem?_eq_none (Nat.le_of_lt behind)]

theorem Represents.push_full (hr : ring.Represents items) (item : T)
    (full : items.length = capacity)
    : ring.push item = .ok (false, ring) := by
  have he : ring.used = capacity := hr.used.trans full
  simp only [RingBuffer.push, pushToSlice, if_pos he]
  rfl

/-- A push into a buffer with room appends the item. Witness: the head is the slot behind the
last item, which is empty, and less than a turn ahead of every item.
-/
theorem Represents.push (hr : ring.Represents items) (item : T) (notFull : items.length < capacity)
    : ∃ ring', ring.push item = .ok (true, ring') ∧ ring'.Represents (items ++ [item]) := by
  have room : ring.used ≠ capacity := by
    rw [hr.used]
    omega
  have empty : ring.fifo[ring.head]? = some none := by
    rw [hr.head, hr.slots items.length notFull]
    simp
  obtain ⟨fifo, written, slots⟩ := writeSlot_empty empty item
  refine ⟨{ ring with head := (ring.head + 1) % capacity, used := ring.used + 1, fifo }, ?_, ?_⟩
  · simp only [RingBuffer.push, pushToSlice, if_neg room, written,
      remainder_pos (Nat.zero_lt_of_lt notFull)]
    rfl
  · refine ⟨by simp [hr.used], by simpa using Nat.succ_le_of_lt notFull,
      hr.tail, ?_, ?_⟩
    · simp only [hr.head, List.length_append, List.length_singleton, Nat.mod_add_mod]
      rw [Nat.add_assoc]
    · intro offset inside
      dsimp only
      rw [slots, hr.head]
      by_cases last : offset = items.length
      · rw [if_pos (by rw [last])]
        simp [last]
      · rw [if_neg (Fifo.slot_ne inside notFull last), hr.slots offset inside,
          getElem?_append_singleton_of_ne last]

theorem Represents.pop_empty (hr : ring.Represents [])
    : ring.pop = .ok (none, ring) := by
  have none : ring.used = 0 := hr.used
  simp only [RingBuffer.pop, popFromSlice, if_pos none]
  rfl

/-- A pop takes the oldest item off. Witness: it lies at the tail, and every other item less
than a turn ahead of it.
-/
theorem Represents.pop {rest : List T} (hr : ring.Represents (item :: rest))
    : ∃ ring', ring.pop = .ok (some item, ring') ∧ ring'.Represents rest := by
  have filled : ring.used ≠ 0 := by simp [hr.used]
  have room := hr.room
  simp only [List.length_cons] at room
  have live : ring.fifo[ring.tail]? = some (some item) := by
    have first := hr.slots 0 (by omega)
    rwa [Nat.add_zero, hr.tail] at first
  obtain ⟨fifo, moved, slots⟩ := readSlot_live live
  refine ⟨{ ring with tail := (ring.tail + 1) % capacity, used := ring.used - 1, fifo }, ?_, ?_⟩
  · simp only [RingBuffer.pop, popFromSlice, if_neg filled, moved,
      remainder_pos (by omega : 0 < capacity)]
    rfl
  · refine ⟨by simp [hr.used], by omega, Nat.mod_mod _ _, ?_, ?_⟩
    · simp only [hr.head, List.length_cons, Nat.mod_add_mod]
      rw [Nat.add_assoc, Nat.add_comm 1]
    · intro offset inside
      dsimp only
      rw [Nat.mod_add_mod, Nat.add_assoc, Nat.add_comm 1, slots]
      by_cases wraps : offset + 1 = capacity
      · -- the slot of the item that was moved out is the last of the turn
        have last : rest[offset]? = none := List.getElem?_eq_none (by omega)
        rw [wraps, Nat.add_mod_right, hr.tail, if_pos rfl, last]
      · have within : offset + 1 < capacity := by omega
        have apart : (ring.tail + (offset + 1)) % capacity ≠ ring.tail := by
          have turn : (ring.tail + 0) % capacity = ring.tail := hr.tail
          nth_rewrite 2 [← turn]
          exact Fifo.slot_ne within (by omega) (by omega)
        rw [if_neg apart, hr.slots (offset + 1) within, List.getElem?_cons_succ]

/-- Dropping the buffer pops exactly the items that are left, by induction on them. -/
theorem Represents.drop (hr : ring.Represents items) {rounds : Nat} (enough : items.length < rounds)
    : ∃ ring', ring.drop rounds = .ok (some (items, ring')) ∧ ring'.Represents [] := by
  induction items generalizing ring rounds with
  | nil =>
      obtain ⟨fewer, rfl⟩ : ∃ fewer, rounds = fewer + 1 := ⟨rounds - 1, by grind⟩
      refine ⟨ring, ?_, hr⟩
      simp only [RingBuffer.drop, hr.pop_empty]
      rfl
  | cons item rest ih =>
      obtain ⟨fewer, rfl⟩ : ∃ fewer, rounds = fewer + 1 := ⟨rounds - 1, by grind⟩
      obtain ⟨popped, pops, left⟩ := hr.pop
      obtain ⟨final, drops, empty⟩ := ih left (by simpa using enough)
      refine ⟨final, ?_, empty⟩
      simp only [RingBuffer.drop, pops]
      change (RingBuffer.drop fewer popped >>= _) = _
      rw [drops]
      rfl

end RingBuffer

/-- The operations on a queue, and what they answer. -/
inductive BufferOp (T : Type) where
  | push (item : T)
  | pop

inductive BufferAnswer (T : Type) where
  | pushed (accepted : Bool)
  | popped (item : Option T)
  deriving DecidableEq, Repr

/-- A queue of at most `capacity` items, as the buffer is meant to behave. -/
def boundedQueue {T : Type} (capacity : Nat) (items : List T)
    : BufferOp T → BufferAnswer T × List T
  | .push item =>
      if items.length = capacity then
        (.pushed false, items)
      else
        (.pushed true, items ++ [item])
  | .pop => (.popped items.head?, items.tail)

namespace RingBuffer

variable {T : Type} {capacity : Nat} {ring ring' : RingBuffer T capacity} {items : List T}

def perform (ring : RingBuffer T capacity)
    : BufferOp T → Except SliceFault (BufferAnswer T × RingBuffer T capacity)
  | .push item => do
      let (accepted, ring) ← ring.push item
      return (.pushed accepted, ring)
  | .pop => do
      let (item, ring) ← ring.pop
      return (.popped item, ring)

/-- A buffer that represents a queue does what the queue does. Witness: a push by whether the
queue is full, a pop by whether it is empty.
-/
theorem Represents.perform (hr : ring.Represents items) (op : BufferOp T)
    : ∃ ring',
        ring.perform op = .ok ((boundedQueue capacity items op).1, ring')
        ∧ ring'.Represents (boundedQueue capacity items op).2 := by
  cases op with
  | push item =>
      by_cases full : items.length = capacity
      · refine ⟨ring, ?_, by simpa [boundedQueue, full] using hr⟩
        simp only [RingBuffer.perform, hr.push_full item full, boundedQueue, if_pos full]
        rfl
      · have room : items.length < capacity := Nat.lt_of_le_of_ne hr.room full
        obtain ⟨ring', pushed, holds⟩ := hr.push item room
        refine ⟨ring', ?_, by simpa [boundedQueue, full] using holds⟩
        simp only [RingBuffer.perform, pushed, boundedQueue, if_neg full]
        rfl
  | pop =>
      cases items with
      | nil =>
          refine ⟨ring, ?_, hr⟩
          simp only [RingBuffer.perform, hr.pop_empty]
          rfl
      | cons item rest =>
          obtain ⟨ring', popped, holds⟩ := hr.pop
          refine ⟨ring', ?_, holds⟩
          simp only [RingBuffer.perform, popped]
          rfl

theorem Represents.indices (hr : ring.Represents items)
    : (0 < capacity → ring.head < capacity ∧ ring.tail < capacity)
      ∧ ring.head = (ring.tail + ring.used) % capacity := by
  refine ⟨fun slots => ⟨?_, ?_⟩, ?_⟩
  · rw [hr.head]
    exact Nat.mod_lt _ slots
  · rw [← hr.tail]
    exact Nat.mod_lt _ slots
  · rw [hr.used]
    exact hr.head

theorem Represents.all_free (hr : ring.Represents []) {index : Nat} (bound : index < capacity)
    : ring.fifo[index]? = some none := by
  have inside : ring.tail < capacity := (hr.indices.1 (by omega)).2
  by_cases ahead : ring.tail ≤ index
  · have slot := hr.slots (index - ring.tail) (by omega)
    rwa [Nat.add_sub_cancel' ahead, Nat.mod_eq_of_lt bound] at slot
  · -- the slot lies in front of the tail, behind the wrap-around
    have slot := hr.slots (index + capacity - ring.tail) (by omega)
    rwa [Nat.add_sub_cancel' (by omega), Nat.add_mod_right, Nat.mod_eq_of_lt bound] at slot

theorem Represents.push_iff (hr : ring.Represents items) (item : T)
    : ring.push item = .ok (false, ring) ↔ ring.used = capacity := by
  rw [hr.used]
  constructor
  · intro refused
    by_contra room
    obtain ⟨ring', pushed, -⟩ :=
      hr.push item (Nat.lt_of_le_of_ne hr.room room)
    cases refused.symm.trans pushed
  · exact hr.push_full item

theorem Represents.pop_iff (hr : ring.Represents items)
    : ring.pop = .ok (none, ring) ↔ ring.used = 0 := by
  cases items with
  | nil => exact ⟨fun _ => hr.used, fun _ => hr.pop_empty⟩
  | cons item rest =>
      obtain ⟨ring', popped, -⟩ := hr.pop
      constructor
      · intro nothing
        cases nothing.symm.trans popped
      · intro empty
        simp [hr.used] at empty

/-- For every capacity and every sequence of pushes and pops, the buffer answers like a queue of
at most that many items, without an access outside of the array, a remainder by zero, a write
over a live item or a read of a slot without one. Its indices stay inside of the array, the head
follows the tail and the number of items, a push is refused and a pop gives nothing exactly when
the buffer is full or empty, and dropping it consumes exactly the items that are left.
-/
theorem behaves_as_bounded_queue (capacity : Nat) (ops : List (BufferOp T))
    : ∃ ring : RingBuffer T capacity,
        let (expected, items) := specified (boundedQueue capacity) [] ops
        answers perform {} ops = .ok (expected, ring)
        ∧ ring.used = items.length ∧ items.length ≤ capacity
        ∧ (0 < capacity → ring.head < capacity ∧ ring.tail < capacity)
        ∧ ring.head = (ring.tail + ring.used) % capacity
        ∧ (∀ item, ring.push item = .ok (false, ring) ↔ ring.used = capacity)
        ∧ (ring.pop = .ok (none, ring) ↔ ring.used = 0)
        ∧ ∀ rounds,
            ring.used < rounds
            → ∃ dropped : RingBuffer T capacity,
                ring.drop rounds = .ok (some (items, dropped))
                ∧ ∀ index < capacity, dropped.fifo[index]? = some none := by
  obtain ⟨ring, ran, hr⟩ :=
    answers_specified (fun _ _ op hr => hr.perform op) represents_new ops
  obtain ⟨inside, follows⟩ := hr.indices
  refine ⟨ring, ran, hr.used, hr.room, inside, follows, hr.push_iff,
    hr.pop_iff, fun rounds enough => ?_⟩
  rw [hr.used] at enough
  obtain ⟨dropped, drops, empty⟩ := hr.drop enough
  exact ⟨dropped, drops, fun index bound => empty.all_free bound⟩

example
    : (answers perform ({} : RingBuffer Nat 2)
        [.push 1, .push 2, .push 3, .pop, .push 4, .pop]).map (·.1)
      = .ok [.pushed true, .pushed true, .pushed false, .popped (some 1), .pushed true,
          .popped (some 2)] := rfl

/-- The buffer without its array bounds, as the channels use it. -/
def toFifo (ring : RingBuffer T capacity) : Fifo T where
  capacity := capacity
  head := ring.head
  tail := ring.tail
  used := ring.used
  slots index := ring.fifo[index]?.join

/-- A buffer that represents a queue is a FIFO of the channels that holds its items. -/
theorem Represents.holds (hr : ring.Represents items)
    : ring.toFifo.Holds items where
  used := hr.used
  room := hr.room
  tail := hr.tail
  head := hr.head
  slots index item found := by
    have bound : index < items.length := (List.getElem?_eq_some_iff.mp found).1
    have slot := hr.slots index (Nat.lt_of_lt_of_le bound hr.room)
    simp [toFifo, slot, found]

end RingBuffer

end Scars
