import Scars.Kernel.AtomicQueue

/-! The intrusive queues refine plain first-in first-out lists.
The node of the item popped last is still the head of its queue, so the abstract state
remembers that item next to the queued ones.
-/

namespace Scars

open Function

variable {κ α : Type}

/-- What the queues stand for: the queued items, oldest first, and the item popped last. -/
structure Fifos (κ α : Type) where
  items : κ → List α
  lastPopped : κ → Option α

namespace Fifos

def empty : Fifos κ α where
  items := fun _ => []
  lastPopped := fun _ => none

def push [DecidableEq κ] (queue : κ) (item : α) (fifos : Fifos κ α) : Fifos κ α :=
  { fifos with items := update fifos.items queue (fifos.items queue ++ [item]) }

def pop [DecidableEq κ] (queue : κ) (fifos : Fifos κ α) : Option α × Fifos κ α :=
  match fifos.items queue with
  | [] => (none, fifos)
  | item :: rest =>
      (some item, {
        items := update fifos.items queue rest
        lastPopped := update fifos.lastPopped queue (some item)
      })

/-- The head node of a queue: the item popped last, or the sentinel of a fresh queue. -/
def headPtr (fifos : Fifos κ α) (queue : κ) : NodePtr κ α :=
  match fifos.lastPopped queue with
  | none => .sentinel queue
  | some item => .item item

/-- All nodes a queue is linked through, from its head to its tail. -/
def ptrs (fifos : Fifos κ α) (queue : κ) : List (NodePtr κ α) :=
  fifos.headPtr queue :: (fifos.items queue).map .item

theorem mem_ptrs {fifos : Fifos κ α} {queue : κ} {item : α}
    : .item item ∈ fifos.ptrs queue
      ↔ fifos.lastPopped queue = some item ∨ item ∈ fifos.items queue := by
  cases popped : fifos.lastPopped queue with
  | none => simp [ptrs, headPtr, popped]
  | some last => simp [ptrs, headPtr, popped, eq_comm]

end Fifos

/-- The last of the nodes that start at `ptr` and continue with `items`. -/
def lastPtr (ptr : NodePtr κ α) : List α → NodePtr κ α
  | [] => ptr
  | item :: rest => lastPtr (.item item) rest

theorem lastPtr_mem (ptr : NodePtr κ α) (items : List α)
    : lastPtr ptr items ∈ ptr :: items.map NodePtr.item := by
  induction items generalizing ptr with
  | nil => simp [lastPtr]
  | cons item rest ih => exact List.mem_cons_of_mem _ (ih (.item item))

theorem lastPtr_append (ptr : NodePtr κ α) (items : List α) (item : α)
    : lastPtr ptr (items ++ [item]) = .item item := by
  induction items generalizing ptr with
  | nil => rfl
  | cons head rest ih => exact ih (.item head)

/-- The nodes from `ptr` on link exactly the listed items, and the last one links none. -/
def Chained (memory : QueueMemory κ α) (ptr : NodePtr κ α) : List α → Prop
  | [] => (memory.node ptr).next = none
  | item :: rest => (memory.node ptr).next = some item ∧ Chained memory (.item item) rest

variable {ptr : NodePtr κ α} {memory memory' : QueueMemory κ α} {items : List α}

/-- A chain depends on the links of its own nodes only, by induction on its items. -/
theorem Chained.congr (chained : Chained memory ptr items)
    (he
      : ∀ other ∈ ptr :: items.map NodePtr.item,
          (memory'.node other).next = (memory.node other).next)
    : Chained memory' ptr items := by
  induction items generalizing ptr with
  | nil => exact (he ptr (by simp)).trans chained
  | cons item rest ih =>
      refine ⟨(he ptr (by simp)).trans chained.1, ih chained.2 ?_⟩
      exact fun other hm => he other (List.mem_cons_of_mem _ hm)

theorem Chained.last {memory : QueueMemory κ α} (chained : Chained memory ptr items)
    : (memory.node (lastPtr ptr items)).next = none := by
  induction items generalizing ptr with
  | nil => exact chained
  | cons item rest ih => exact ih chained.2

/-- Linking a new node behind the last one appends its item. Witness: induction on the
items; the nodes are distinct, so every earlier link is as before.
-/
theorem Chained.append {item : α} (chained : Chained memory ptr items)
    (distinct : (ptr :: items.map NodePtr.item).Nodup)
    (he
      : ∀ other ∈ ptr :: items.map NodePtr.item,
          other ≠ lastPtr ptr items
          → (memory'.node other).next = (memory.node other).next)
    (linked : (memory'.node (lastPtr ptr items)).next = some item)
    (ends : (memory'.node (.item item)).next = none)
    : Chained memory' ptr (items ++ [item]) := by
  induction items generalizing ptr with
  | nil => exact ⟨linked, ends⟩
  | cons head rest ih =>
      obtain ⟨notLater, restDistinct⟩ := List.nodup_cons.mp distinct
      have notLast : ptr ≠ lastPtr (.item head) rest := by
        intro he
        exact notLater (he ▸ lastPtr_mem (.item head) rest)
      refine ⟨(he ptr (by simp) notLast).trans chained.1, ?_⟩
      refine ih chained.2 restDistinct ?_ linked
      exact fun other hm => he other (List.mem_cons_of_mem _ hm)

/-- (Represents memory fifos) holds when following the links of each queue yields its
items, the owned flags mark exactly the queued items, and no node is linked twice.
-/
structure Represents (memory : QueueMemory κ α) (fifos : Fifos κ α) : Prop where
  head : ∀ queue, memory.loadHead queue = fifos.headPtr queue
  tail : ∀ queue, memory.loadTail queue = lastPtr (fifos.headPtr queue) (fifos.items queue)
  chained : ∀ queue, Chained memory (fifos.headPtr queue) (fifos.items queue)
  owned : ∀ item, memory.isLinked item = true ↔ ∃ queue, item ∈ fifos.items queue
  distinct : ∀ queue, (fifos.ptrs queue).Nodup
  apart : ∀ queue other, queue ≠ other → ∀ ptr ∈ fifos.ptrs queue, ptr ∉ fifos.ptrs other

theorem represents_new : Represents (QueueMemory.new : QueueMemory κ α) Fifos.empty where
  head _ := rfl
  tail _ := rfl
  chained _ := rfl
  owned _ := by simp [QueueMemory.isLinked, QueueMemory.new, Fifos.empty]
  distinct _ := by simp [Fifos.ptrs, Fifos.empty]
  apart queue other hne := by
    simpa [Fifos.ptrs, Fifos.headPtr, Fifos.empty] using hne

variable [DecidableEq κ]

namespace QueueMemory

@[simp]
theorem initOnce_node (queue : κ) (memory : QueueMemory κ α)
    : (memory.initOnce queue).node = memory.node := rfl

@[simp]
theorem initOnce_loadHead (queue other : κ) (memory : QueueMemory κ α)
    : (memory.initOnce queue).loadHead other = memory.loadHead other := by
  simp only [initOnce, loadHead]
  split
  next null =>
    by_cases he : other = queue
    · subst he; simp [null]
    · rw [update_of_ne he]
  next => rfl

@[simp]
theorem initOnce_loadTail (queue other : κ) (memory : QueueMemory κ α)
    : (memory.initOnce queue).loadTail other = memory.loadTail other := by
  simp only [initOnce, loadTail]
  split
  next null =>
    by_cases he : other = queue
    · subst he; simp [null]
    · rw [update_of_ne he]
  next => rfl

end QueueMemory

theorem Represents.initOnce {memory : QueueMemory κ α} {fifos : Fifos κ α}
    (hr : Represents memory fifos) (queue : κ)
    : Represents (memory.initOnce queue) fifos where
  head other := (QueueMemory.initOnce_loadHead queue other memory).trans (hr.head other)
  tail other := (QueueMemory.initOnce_loadTail queue other memory).trans (hr.tail other)
  chained other := (hr.chained other).congr fun _ _ => rfl
  owned item := hr.owned item
  distinct := hr.distinct
  apart := hr.apart

theorem Represents.isEmpty {memory : QueueMemory κ α} {fifos : Fifos κ α} {queue : κ}
    (hr : Represents memory fifos)
    : (memory.isEmpty queue).1 = (fifos.items queue).isEmpty
      ∧ Represents (memory.isEmpty queue).2 fifos := by
  have ready := hr.initOnce queue
  refine ⟨?_, ready⟩
  have chain := hr.chained queue
  simp only [QueueMemory.isEmpty, ready.head queue]
  cases hq : fifos.items queue with
  | nil => rw [hq] at chain; simpa [Chained] using chain
  | cons item rest => rw [hq] at chain; simp [chain.1]

end Scars
