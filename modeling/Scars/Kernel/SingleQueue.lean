import Scars.Kernel.QueueRefinement

/-! One intrusive queue by itself, seen through the owned flags of its items.
An intact queue stays intact as long as every item pushed has a free node: it is not queued
and its node is not the head that the last pop left behind.
-/

namespace Scars

variable {α : Type} {memory : QueueMemory Unit α} {fifos : Fifos Unit α}

theorem Represents.isLinked_iff (hr : Represents memory fifos) (item : α)
    : memory.isLinked item = true ↔ item ∈ fifos.items () := by
  rw [hr.owned]
  exact ⟨fun ⟨_, hm⟩ => hm, fun hm => ⟨(), hm⟩⟩

/-- The queue is what a run of pushes with free nodes and pops leaves. -/
def QueueMemory.Intact (memory : QueueMemory Unit α) : Prop := ∃ fifos, Represents memory fifos

theorem intact_new : (QueueMemory.new : QueueMemory Unit α).Intact := ⟨_, represents_new⟩

variable [DecidableEq α] {item : α}

theorem QueueMemory.Intact.pushBack (intact : memory.Intact) (free : memory.isLinked item = false)
    (notHead : memory.loadHead () ≠ .item item) (fuel : Nat)
    : ∃ after, memory.pushBack (fuel + 1) () item = .ok after
        ∧ after.Intact
        ∧ ∀ other, after.isLinked other = true ↔ memory.isLinked other = true ∨ other = item := by
  obtain ⟨fifos, hr⟩ := intact
  have unlinked : ∀ queue, .item item ∉ fifos.ptrs queue := by
    intro queue hm
    rcases Fifos.mem_ptrs.mp hm with popped | hq
    · refine notHead ((hr.head queue).trans ?_)
      simp [Fifos.headPtr, popped]
    · rw [(hr.isLinked_iff item).mpr hq] at free
      cases free
  obtain ⟨after, pushed, hr'⟩ := hr.pushBack unlinked
  refine ⟨after, pushed, ⟨_, hr'⟩, fun other => ?_⟩
  rw [hr'.isLinked_iff, hr.isLinked_iff, Fifos.push_items_self]
  simp

theorem QueueMemory.Intact.popFront (intact : memory.Intact) (fuel : Nat)
    : ∃ popped after, memory.popFront (fuel + 1) () = .ok (popped, after)
        ∧ after.Intact
        ∧ (∀ item, popped = some item → memory.isLinked item = true)
        ∧ ∀ other, after.isLinked other = true
            ↔ memory.isLinked other = true ∧ popped ≠ some other := by
  obtain ⟨fifos, hr⟩ := intact
  obtain ⟨after, popped, hr'⟩ := hr.popFront fuel ()
  refine ⟨_, after, popped, ⟨_, hr'⟩, ?_⟩
  simp only [hr'.isLinked_iff, hr.isLinked_iff]
  cases items : fifos.items () with
  | nil => simp [Fifos.pop, items]
  | cons head rest =>
      have distinct := hr.distinct ()
      have absent : head ∉ rest := by
        simp only [Fifos.ptrs, items, List.map_cons, List.nodup_cons] at distinct
        exact fun hm => distinct.2.1 (List.mem_map_of_mem hm)
      simp only [Fifos.pop, items, Function.update_self]
      refine ⟨by simp, fun other => ?_⟩
      constructor
      · intro hm
        refine ⟨List.mem_cons_of_mem _ hm, fun he => ?_⟩
        rw [Option.some.inj he] at absent
        exact absent hm
      · rintro ⟨hm, hne⟩
        exact (List.mem_cons.mp hm).resolve_left fun he => hne (by rw [he])

/-- The memory after `AtomicNode::new` was written over the node of an item. -/
def QueueMemory.resetNode (item : α) (memory : QueueMemory Unit α) : QueueMemory Unit α :=
  (memory.storeOwned (.item item) false).storeNext (.item item) none

theorem QueueMemory.resetNode_isLinked (free : memory.isLinked item = false) (other : α)
    : (memory.resetNode item).isLinked other = memory.isLinked other := by
  by_cases he : other = item
  case pos =>
      subst he
      rw [free]
      simp [resetNode, storeNext, storeOwned, isLinked]
  case neg => simp [resetNode, storeNext, storeOwned, isLinked, he]

/-- A node that is not queued, and not the head of a queue with items, may be written over.
Witness: the only unqueued node that the links run through is the head, and it links nothing
in an empty queue.
-/
theorem QueueMemory.Intact.resetNode (intact : memory.Intact) (free : memory.isLinked item = false)
    (bare : memory.loadHead () = .item item → (memory.isEmpty ()).1 = true)
    : (memory.resetNode item).Intact := by
  obtain ⟨fifos, hr⟩ := intact
  refine ⟨fifos, hr.head, hr.tail, fun queue => ?_, fun other => ?_,
    hr.distinct, hr.apart⟩
  · refine (hr.chained queue).congr fun ptr hm => ?_
    by_cases he : ptr = .item item
    case neg => simp [QueueMemory.resetNode, storeNext, storeOwned, he]
    case pos =>
        subst he
        have popped : fifos.lastPopped queue = some item := by
          refine (Fifos.mem_ptrs.mp hm).resolve_right fun hq => ?_
          rw [(hr.isLinked_iff item).mpr hq] at free
          cases free
        have head : memory.loadHead () = .item item := by
          rw [hr.head, Fifos.headPtr, popped]
        have last : (memory.node (.item item)).next = none := by
          have empty := bare head
          simpa [isEmpty, head] using empty
        simp [QueueMemory.resetNode, storeNext, last]
  · rw [resetNode_isLinked free]
    exact hr.owned other

end Scars
