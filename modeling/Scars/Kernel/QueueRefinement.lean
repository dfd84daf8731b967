import Scars.Kernel.QueueChain

/-! Pushing and popping on the intrusive queues refine the abstract queues.
A push is sound when no queue links its item: popping leaves the popped node in place as
the head, and that node must not be pushed again before the next pop replaces it.
-/

namespace Scars

variable {κ α : Type} [DecidableEq κ]

namespace Fifos

@[simp]
theorem push_headPtr (queue other : κ) (item : α) (fifos : Fifos κ α)
    : (fifos.push queue item).headPtr other = fifos.headPtr other := rfl

theorem push_items_self (queue : κ) (item : α) (fifos : Fifos κ α)
    : (fifos.push queue item).items queue = fifos.items queue ++ [item] := by
  simp [push]

theorem push_items_other {queue other : κ} (hne : other ≠ queue) (item : α) (fifos : Fifos κ α)
    : (fifos.push queue item).items other = fifos.items other := by
  simp [push, hne]

theorem push_ptrs_self (queue : κ) (item : α) (fifos : Fifos κ α)
    : (fifos.push queue item).ptrs queue = fifos.ptrs queue ++ [.item item] := by
  simp [ptrs, push_items_self]

theorem push_ptrs_other {queue other : κ} (hne : other ≠ queue) (item : α) (fifos : Fifos κ α)
    : (fifos.push queue item).ptrs other = fifos.ptrs other := by
  simp [ptrs, push_items_other hne]

end Fifos

variable [DecidableEq α]

/-- The memory after `push_back` links an item behind the last node of a queue. -/
def QueueMemory.linkBehind (queue : κ) (last : NodePtr κ α) (item : α) (memory : QueueMemory κ α)
    : QueueMemory κ α :=
  (((memory.storeOwned (.item item) true).storeNext (.item item) none).storeNext last
    (some item)).storeTail queue (.item item)

namespace QueueMemory

variable {memory : QueueMemory κ α} {queue : κ} {item : α} {last ptr : NodePtr κ α}

/-- An unlinked item is linked behind the tail in the first round of the loop. -/
theorem pushBack_eq {fuel : Nat} (unlinked : memory.isLinked item = false)
    (tail : memory.loadTail queue = last) (ends : (memory.node last).next = none)
    (hne : last ≠ .item item)
    : memory.pushBack (fuel + 1) queue item
      = .ok ((memory.initOnce queue).linkBehind queue last item) := by
  have unlinked' : (memory.initOnce queue).isLinked item = false := unlinked
  have tail' : (memory.initOnce queue).loadTail queue = last := by simpa using tail
  simp only [pushBack, unlinked', Bool.false_eq_true, if_false, pushLoop]
  simp only [loadTail, storeNext, storeOwned] at tail' ⊢
  simp [tail', hne, ends, linkBehind, storeNext, storeOwned]

theorem linkBehind_next_last
    : ((memory.linkBehind queue last item).node last).next = some item := by
  simp [linkBehind, storeTail, storeNext]

theorem linkBehind_next_item (hne : last ≠ .item item)
    : ((memory.linkBehind queue last item).node (.item item)).next = none := by
  simp [linkBehind, storeTail, storeNext, hne.symm]

theorem linkBehind_next_other (notItem : ptr ≠ .item item) (notLast : ptr ≠ last)
    : ((memory.linkBehind queue last item).node ptr).next = (memory.node ptr).next := by
  simp [linkBehind, storeTail, storeNext, storeOwned, notItem, notLast]

theorem linkBehind_isLinked (hne : last ≠ .item item) (other : α)
    : (memory.linkBehind queue last item).isLinked other
      = (decide (other = item) || memory.isLinked other) := by
  by_cases he : other = item
  · subst he
    simp [isLinked, linkBehind, storeTail, storeNext, storeOwned, hne.symm]
  · by_cases atLast : NodePtr.item other = last
    · subst atLast
      simp [isLinked, linkBehind, storeTail, storeNext, storeOwned, he]
    · simp [isLinked, linkBehind, storeTail, storeNext, storeOwned, he, atLast]

end QueueMemory

/-- Linking an item that no queue links appends it to its queue and leaves every other
chain alone.
-/
theorem Represents.linkBehind {memory : QueueMemory κ α} {fifos : Fifos κ α} {queue : κ}
    {item : α} (hr : Represents memory fifos) (unlinked : ∀ other, .item item ∉ fifos.ptrs other)
    : Represents
        (memory.linkBehind queue (lastPtr (fifos.headPtr queue) (fifos.items queue)) item)
        (fifos.push queue item) := by
  generalize atLast : lastPtr (fifos.headPtr queue) (fifos.items queue) = last
  have lastMember : last ∈ fifos.ptrs queue := atLast ▸ lastPtr_mem _ _
  have notItem (other : κ) {ptr : NodePtr κ α} (hm : ptr ∈ fifos.ptrs other)
      : ptr ≠ .item item := fun he => unlinked other (he ▸ hm)
  have lastOther := notItem queue lastMember
  constructor
  case head => exact hr.head
  case tail =>
    intro other
    by_cases he : other = queue
    · subst he
      rw [Fifos.push_items_self, lastPtr_append]
      simp [QueueMemory.loadTail, QueueMemory.linkBehind, QueueMemory.storeTail]
    · rw [Fifos.push_items_other he, Fifos.push_headPtr, ← hr.tail other]
      simp [QueueMemory.loadTail, QueueMemory.linkBehind, QueueMemory.storeTail,
        QueueMemory.storeNext, QueueMemory.storeOwned, he]
  case chained =>
    intro other
    by_cases he : other = queue
    · subst he
      rw [Fifos.push_items_self]
      refine (hr.chained other).append (hr.distinct other) ?_ ?_ ?_
      · intro ptr hm notLast
        exact QueueMemory.linkBehind_next_other (notItem other hm) (atLast ▸ notLast)
      · rw [atLast]
        exact QueueMemory.linkBehind_next_last
      · exact QueueMemory.linkBehind_next_item lastOther
    · rw [Fifos.push_items_other he]
      refine (hr.chained other).congr fun ptr hm => ?_
      have notLast : ptr ≠ last := by
        rintro rfl
        exact hr.apart queue other (Ne.symm he) _ lastMember hm
      exact QueueMemory.linkBehind_next_other (notItem other hm) notLast
  case owned =>
    intro other
    rw [QueueMemory.linkBehind_isLinked lastOther, Bool.or_eq_true, decide_eq_true_iff,
      hr.owned]
    constructor
    · rintro (rfl | ⟨holder, hm⟩)
      · exact ⟨queue, by simp [Fifos.push_items_self]⟩
      · by_cases he : holder = queue
        · exact ⟨queue, by simp [Fifos.push_items_self, he ▸ hm]⟩
        · exact ⟨holder, by rwa [Fifos.push_items_other he]⟩
    · rintro ⟨holder, hm⟩
      by_cases he : holder = queue
      · subst he
        rw [Fifos.push_items_self, List.mem_append, List.mem_singleton] at hm
        exact hm.symm.imp_right fun found => ⟨holder, found⟩
      · exact Or.inr ⟨holder, by rwa [Fifos.push_items_other he] at hm⟩
  case distinct =>
    intro other
    by_cases he : other = queue
    · subst he
      rw [Fifos.push_ptrs_self]
      refine List.nodup_append.mpr ⟨hr.distinct other, by simp, ?_⟩
      intro ptr hm added addedMember
      rw [List.mem_singleton] at addedMember
      exact addedMember ▸ notItem other hm
    · rw [Fifos.push_ptrs_other he]
      exact hr.distinct other
  case apart =>
    -- the pushed node is new everywhere, the others are apart already
    intro left right hne ptr inLeft inRight
    have hm (other : κ) (inPushed : ptr ∈ (fifos.push queue item).ptrs other)
        : ptr ∈ fifos.ptrs other ∨ (ptr = .item item ∧ other = queue) := by
      by_cases he : other = queue
      · subst he
        rw [Fifos.push_ptrs_self, List.mem_append, List.mem_singleton] at inPushed
        exact inPushed.imp_right fun found => ⟨found, rfl⟩
      · exact Or.inl (by rwa [Fifos.push_ptrs_other he] at inPushed)
    rcases hm left inLeft with inLeft | ⟨rfl, rfl⟩
    · rcases hm right inRight with inRight | ⟨rfl, _⟩
      · exact hr.apart left right hne ptr inLeft inRight
      · exact unlinked left inLeft
    · rcases hm right inRight with inRight | ⟨_, rfl⟩
      · exact unlinked right inRight
      · exact hne rfl

/-- Pushing an item that is neither queued nor the head node of a queue succeeds and
appends it.
-/
theorem Represents.pushBack {memory : QueueMemory κ α} {fifos : Fifos κ α} {fuel : Nat}
    {queue : κ} {item : α} (hr : Represents memory fifos)
    (unlinked : ∀ other, .item item ∉ fifos.ptrs other)
    : ∃ after,
        memory.pushBack (fuel + 1) queue item = .ok after
        ∧ Represents after (fifos.push queue item) := by
  have notOwned : memory.isLinked item = false := by
    rw [Bool.eq_false_iff, ne_eq, hr.owned]
    rintro ⟨other, hm⟩
    exact unlinked other (Fifos.mem_ptrs.mpr (Or.inr hm))
  refine ⟨_, QueueMemory.pushBack_eq notOwned (hr.tail queue)
    (hr.chained queue).last ?_, (hr.initOnce queue).linkBehind unlinked⟩
  exact fun he => unlinked queue (he ▸ lastPtr_mem _ _)

/-- The memory after `pop_front` moved the head to the node of the popped item. -/
def QueueMemory.advanceHead (queue : κ) (item : α) (memory : QueueMemory κ α)
    : QueueMemory κ α :=
  (memory.storeHead queue (.item item)).storeOwned (.item item) false

namespace QueueMemory

variable {memory : QueueMemory κ α} {queue : κ} {item : α}

theorem advanceHead_next (ptr : NodePtr κ α)
    : ((memory.advanceHead queue item).node ptr).next = (memory.node ptr).next := by
  by_cases he : ptr = .item item
  · subst he; simp [advanceHead, storeHead, storeOwned]
  · simp [advanceHead, storeHead, storeOwned, he]

theorem advanceHead_isLinked (other : α)
    : (memory.advanceHead queue item).isLinked other
      = (!decide (other = item) && memory.isLinked other) := by
  by_cases he : other = item
  · subst he; simp [isLinked, advanceHead, storeHead, storeOwned]
  · simp [isLinked, advanceHead, storeHead, storeOwned, he]

theorem advanceHead_loadHead (other : κ)
    : (memory.advanceHead queue item).loadHead other
      = if other = queue then .item item else memory.loadHead other := by
  by_cases he : other = queue
  · subst he; simp [loadHead, advanceHead, storeHead, storeOwned]
  · simp [loadHead, advanceHead, storeHead, storeOwned, he]

end QueueMemory

/-- Moving the head of a queue with a first item represents the queue without it: the
chain from the new head is the rest of the old one.
-/
theorem Represents.advanceHead {memory : QueueMemory κ α} {fifos : Fifos κ α} {queue : κ}
    {item : α} {rest : List α} (hr : Represents memory fifos)
    (hq : fifos.items queue = item :: rest)
    : Represents (memory.advanceHead queue item) (fifos.pop queue).2 := by
  have ptrsSelf : (fifos.pop queue).2.ptrs queue = (fifos.ptrs queue).tail := by
    simp [Fifos.pop, hq, Fifos.ptrs, Fifos.headPtr]
  have itemsSelf : (fifos.pop queue).2.items queue = rest := by
    simp [Fifos.pop, hq]
  have headSelf : (fifos.pop queue).2.headPtr queue = .item item := by
    simp [Fifos.pop, hq, Fifos.headPtr]
  have itemsOther {other : κ} (hne : other ≠ queue)
      : (fifos.pop queue).2.items other = fifos.items other := by
    simp [Fifos.pop, hq, hne]
  have headOther {other : κ} (hne : other ≠ queue)
      : (fifos.pop queue).2.headPtr other = fifos.headPtr other := by
    simp [Fifos.pop, hq, Fifos.headPtr, hne]
  have ptrsOther {other : κ} (hne : other ≠ queue)
      : (fifos.pop queue).2.ptrs other = fifos.ptrs other := by
    simp [Fifos.ptrs, itemsOther hne, headOther hne]
  have shrinks (other : κ) {ptr : NodePtr κ α} (hm : ptr ∈ (fifos.pop queue).2.ptrs other)
      : ptr ∈ fifos.ptrs other := by
    by_cases he : other = queue
    · subst he
      exact List.mem_of_mem_tail (ptrsSelf ▸ hm)
    · exact ptrsOther he ▸ hm
  have itemLinked : .item item ∈ fifos.ptrs queue := by simp [Fifos.ptrs, hq]
  have chain := hr.chained queue
  rw [hq] at chain
  constructor
  case head =>
    intro other
    rw [QueueMemory.advanceHead_loadHead]
    split
    next he => rw [he, headSelf]
    next hne => rw [headOther hne, hr.head]
  case tail =>
    intro other
    refine (hr.tail other).trans ?_
    by_cases he : other = queue
    · subst he
      rw [hq, headSelf, itemsSelf]
      rfl
    · rw [itemsOther he, headOther he]
  case chained =>
    intro other
    refine Chained.congr ?_ fun ptr _ => QueueMemory.advanceHead_next ptr
    by_cases he : other = queue
    · subst he
      rw [headSelf, itemsSelf]
      exact chain.2
    · rw [itemsOther he, headOther he]
      exact hr.chained other
  case owned =>
    intro other
    rw [QueueMemory.advanceHead_isLinked, Bool.and_eq_true, Bool.not_eq_true',
      decide_eq_false_iff_not, hr.owned]
    constructor
    · rintro ⟨hne, holder, hm⟩
      refine ⟨holder, ?_⟩
      by_cases he : holder = queue
      · subst he
        rw [itemsSelf]
        rw [hq, List.mem_cons] at hm
        exact hm.resolve_left hne
      · rwa [itemsOther he]
    · rintro ⟨holder, hm⟩
      by_cases he : holder = queue
      · subst he
        rw [itemsSelf] at hm
        refine ⟨?_, holder, by simp [hq, hm]⟩
        rintro rfl
        have distinct := hr.distinct holder
        simp [Fifos.ptrs, hq, hm] at distinct
      · rw [itemsOther he] at hm
        refine ⟨?_, holder, hm⟩
        rintro rfl
        exact hr.apart queue holder (Ne.symm he) _ itemLinked
          (Fifos.mem_ptrs.mpr (Or.inr hm))
  case distinct =>
    intro other
    by_cases he : other = queue
    · subst he
      rw [ptrsSelf]
      exact (hr.distinct other).tail
    · rw [ptrsOther he]
      exact hr.distinct other
  case apart =>
    intro left right hne ptr inLeft inRight
    exact hr.apart left right hne ptr (shrinks left inLeft)
      (shrinks right inRight)

theorem Represents.popFront {memory : QueueMemory κ α} {fifos : Fifos κ α}
    (hr : Represents memory fifos) (fuel : Nat) (queue : κ)
    : ∃ after,
        memory.popFront (fuel + 1) queue = .ok ((fifos.pop queue).1, after)
        ∧ Represents after (fifos.pop queue).2 := by
  have ready := hr.initOnce queue
  have head := ready.head queue
  have tail := ready.tail queue
  have chain := hr.chained queue
  cases hq : fifos.items queue with
  | nil =>
      rw [hq] at tail chain
      refine ⟨memory.initOnce queue, ?_, by simpa [Fifos.pop, hq] using ready⟩
      simp only [Chained] at chain
      simp [QueueMemory.popFront, QueueMemory.popLoop, head, tail, lastPtr, chain, Fifos.pop,
        hq]
  | cons item rest =>
      rw [hq] at tail chain
      have notTail : fifos.headPtr queue ≠ lastPtr (.item item) rest := by
        intro he
        have distinct := hr.distinct queue
        rw [Fifos.ptrs, hq] at distinct
        exact (List.nodup_cons.mp distinct).1 (he ▸ lastPtr_mem (.item item) rest)
      have owned : (memory.initOnce queue).isLinked item = true :=
        (ready.owned item).mpr ⟨queue, by simp [hq]⟩
      refine ⟨_, ?_, ready.advanceHead hq⟩
      have owned' : ((memory.initOnce queue).storeHead queue (.item item)).isLinked item = true :=
        owned
      simp [QueueMemory.popFront, QueueMemory.popLoop, head, tail, lastPtr, notTail, chain.1,
        owned', Fifos.pop, hq, QueueMemory.advanceHead]

theorem Represents.of_pushBack {memory after : QueueMemory κ α} {fifos : Fifos κ α} {fuel : Nat}
    {queue : κ} {item : α} (hr : Represents memory fifos)
    (unlinked : ∀ other, .item item ∉ fifos.ptrs other)
    (pushed : memory.pushBack fuel queue item = .ok after)
    : Represents after (fifos.push queue item) := by
  cases fuel with
  | zero =>
      unfold QueueMemory.pushBack at pushed
      dsimp only at pushed
      split at pushed <;> cases pushed
  | succ fuel =>
      obtain ⟨result, he, hr'⟩ := hr.pushBack unlinked
      rw [he] at pushed
      cases pushed
      exact hr'

theorem Represents.of_popFront {memory after : QueueMemory κ α} {fifos : Fifos κ α} {fuel : Nat}
    {queue : κ} {popped : Option α} (hr : Represents memory fifos)
    (taken : memory.popFront fuel queue = .ok (popped, after))
    : popped = (fifos.pop queue).1 ∧ Represents after (fifos.pop queue).2 := by
  cases fuel with
  | zero => cases taken
  | succ fuel =>
      obtain ⟨result, he, hr'⟩ := hr.popFront fuel queue
      rw [he] at taken
      cases taken
      exact ⟨rfl, hr'⟩

omit [DecidableEq α] in
theorem Represents.items_of_isEmpty {memory : QueueMemory κ α} {fifos : Fifos κ α} {queue : κ}
    (hr : Represents memory fifos) (empty : (memory.isEmpty queue).1 = true)
    : fifos.items queue = [] := by
  have ready := hr.initOnce queue
  have chain := ready.chained queue
  unfold QueueMemory.isEmpty at empty
  dsimp only at empty
  rw [ready.head queue] at empty
  cases hq : fifos.items queue with
  | nil => rfl
  | cons item rest =>
      rw [hq] at chain
      rw [chain.1] at empty
      cases empty

end Scars
