import Mathlib.Data.List.Basic
import Scars.Foundation.OrderedInsert
import Scars.Kernel.LinkedList

/-! The intrusive lists refine plain lists.
Every insertion links a node between two neighbours and every removal links one out, so the
operations are first brought to these two forms.
-/

namespace Scars.ListMemory

open Chains Function

variable {κ α : Type}

/-- The memory holds the lists: both chains of each list are its items in opposite order, the
owner of a node is the list that has its item, and a node without owner is without links.
-/
structure Holds (memory : ListMemory κ α) (lists : κ → List α) : Prop where
  forward : ∀ list, Chain memory.next (memory.head list) (lists list)
  backward : ∀ list, Chain memory.prev (memory.tail list) (lists list).reverse
  owner : ∀ item list, memory.owner item = some list ↔ item ∈ lists list
  free : ∀ item, memory.owner item = none → memory.next item = none ∧ memory.prev item = none
  distinct : ∀ list, (lists list).Nodup

theorem holds_new : Holds (new : ListMemory κ α) fun _ => [] where
  forward := fun _ => rfl
  backward := fun _ => rfl
  owner := by simp [new]
  free := fun _ _ => ⟨rfl, rfl⟩
  distinct := fun _ => List.nodup_nil

namespace Holds

variable {memory : ListMemory κ α} {lists : κ → List α} {list : κ} {item : α}

/-- Lists are disjoint, since a node has one owner. -/
theorem eq_of_mem (holds : memory.Holds lists) {other : κ} (hm : item ∈ lists list)
    (memberOther : item ∈ lists other)
    : list = other :=
  Option.some.inj
    (((holds.owner item list).mpr hm).symm.trans ((holds.owner item other).mpr memberOther))

theorem owner_eq_none (holds : memory.Holds lists)
    : memory.owner item = none ↔ ∀ list, item ∉ lists list := by
  cases owned : memory.owner item with
  | none =>
      refine ⟨fun _ list hm => ?_, fun _ => rfl⟩
      rw [← holds.owner item list, owned] at hm
      cases hm
  | some owner =>
      refine ⟨nofun, fun absent => ?_⟩
      exact absurd ((holds.owner item owner).mp owned) (absent owner)

theorem head_eq (holds : memory.Holds lists)
    : memory.head list = (lists list).head? :=
  (holds.forward list).first_eq

theorem tail_eq (holds : memory.Holds lists)
    : memory.tail list = (lists list).getLast? := by
  rw [(holds.backward list).first_eq, List.head?_reverse]

theorem next_eq (holds : memory.Holds lists) {front back : List α}
    (cut : lists list = front ++ item :: back)
    : memory.next item = back.head? :=
  (cut ▸ holds.forward list).link_eq

theorem prev_eq (holds : memory.Holds lists) {front back : List α}
    (cut : lists list = front ++ item :: back)
    : memory.prev item = front.getLast? := by
  have chain := holds.backward list
  simp only [cut, List.reverse_append, List.reverse_cons, List.append_assoc,
    List.singleton_append] at chain
  rw [chain.link_eq, List.head?_reverse]

theorem neighbours_ne (holds : memory.Holds lists) {front back : List α} {other : κ} {key : α}
    (inside : ∀ key ∈ front ++ back, key ∈ lists list) (hne : other ≠ list) (hm : key ∈ lists other)
    : front.getLast? ≠ some key ∧ back.head? ≠ some key :=
  Chains.neighbours_ne fun within => hne (holds.eq_of_mem hm (inside key within))

end Holds

variable [DecidableEq κ] [DecidableEq α]

/-- `item` stands between `before` and `behind` in the list. -/
def link (list : κ) (before behind : Option α) (item : α) (memory : ListMemory κ α)
    : ListMemory κ α where
  head :=
    update memory.head list (if before = none then some item else memory.head list)
  tail :=
    update memory.tail list (if behind = none then some item else memory.tail list)
  owner := update memory.owner item (some list)
  next := insertLink memory.next before behind item
  prev := insertLink memory.prev behind before item

/-- `item`, which stood between `before` and `behind`, has left the list. -/
def unlink (list : κ) (before behind : Option α) (item : α) (memory : ListMemory κ α)
    : ListMemory κ α where
  head := update memory.head list (if before = none then behind else memory.head list)
  tail := update memory.tail list (if behind = none then before else memory.tail list)
  owner := update memory.owner item none
  next := removeLink memory.next before behind item
  prev := removeLink memory.prev behind before item

namespace Holds

variable {memory : ListMemory κ α} {lists : κ → List α} {list : κ} {item : α}

/-- Witness: the two chains of the list take in the node, the chains of other lists have
neither the node nor its neighbours.
-/
theorem link (holds : memory.Holds lists) {front back : List α}
    (cut : lists list = front ++ back) (free : memory.owner item = none)
    : (memory.link list front.getLast? back.head? item).Holds
        (update lists list (front ++ item :: back)) := by
  have absent := holds.owner_eq_none.mp free
  have inside : ∀ key ∈ front ++ back, key ∈ lists list := fun key hm => cut ▸ hm
  have absentHere : item ∉ front ++ back := cut ▸ absent list
  have distinctHere : (front ++ back).Nodup := cut ▸ holds.distinct list
  have notItem {key : α} {other : κ} (hm : key ∈ lists other) : key ≠ item :=
    fun he => absent other (he ▸ hm)
  constructor
  case forward =>
      intro other
      by_cases he : other = list
      · subst he
        simp only [ListMemory.link, update_self]
        exact (cut ▸ holds.forward other).insert distinctHere absentHere
      · simp only [ListMemory.link, update_of_ne he]
        exact (holds.forward other).congr fun key hm =>
          insertLink_of_ne (notItem hm) (holds.neighbours_ne inside he hm).1
  case backward =>
      intro other
      by_cases he : other = list
      · subst he
        have chain := holds.backward other
        have distinctBack := List.nodup_reverse.mpr distinctHere
        have absentBack := fun hm => absentHere (List.mem_reverse.mp hm)
        rw [List.reverse_append] at distinctBack absentBack
        rw [cut, List.reverse_append] at chain
        have hi := chain.insert distinctBack absentBack
        simpa [ListMemory.link] using hi
      · simp only [ListMemory.link, update_of_ne he]
        exact (holds.backward other).congr fun key hm =>
          have hm := List.mem_reverse.mp hm
          insertLink_of_ne (notItem hm) (holds.neighbours_ne inside he hm).2
  case owner =>
      intro key other
      simp only [ListMemory.link, update_apply]
      by_cases isItem : key = item
      · subst isItem
        by_cases he : other = list
        · simp [he]
        · simp [he, Ne.symm he, absent other]
      · by_cases he : other = list
        · subst he
          simp [isItem, holds.owner, cut]
        · simp [isItem, he, holds.owner]
  case free =>
      intro key unowned
      simp only [ListMemory.link, update_apply] at unowned
      split at unowned
      · cases unowned
      · rename_i isItem
        have outside := holds.owner_eq_none.mp unowned list
        rw [cut] at outside
        obtain ⟨notLast, notFirst⟩ := Chains.neighbours_ne outside
        simp only [ListMemory.link, insertLink_of_ne isItem notLast,
          insertLink_of_ne isItem notFirst]
        exact holds.free key unowned
  case distinct =>
      intro other
      simp only [update_apply]
      split
      · exact List.nodup_middle.mpr (List.nodup_cons.mpr ⟨absentHere, distinctHere⟩)
      · exact holds.distinct other

/-- Witness: the two chains of the list leave out the node, the chains of other lists have
neither the node nor its neighbours.
-/
theorem unlink (holds : memory.Holds lists) {front back : List α}
    (cut : lists list = front ++ item :: back)
    : (memory.unlink list front.getLast? back.head? item).Holds
        (update lists list (front ++ back)) := by
  have inside : ∀ key ∈ front ++ back, key ∈ lists list := fun key hm => by
    rw [cut]
    exact List.perm_middle.mem_iff.mpr (List.mem_cons_of_mem item hm)
  have here : item ∈ lists list := by simp [cut]
  have distinctHere : (front ++ item :: back).Nodup := cut ▸ holds.distinct list
  obtain ⟨gone, distinctRest⟩ := List.nodup_cons.mp (List.nodup_middle.mp distinctHere)
  have notItem {key : α} {other : κ} (hne : other ≠ list) (hm : key ∈ lists other)
      : key ≠ item :=
    fun he => hne (holds.eq_of_mem hm (he ▸ here))
  constructor
  case forward =>
      intro other
      by_cases he : other = list
      · subst he
        simp only [ListMemory.unlink, update_self]
        exact (cut ▸ holds.forward other).remove distinctHere
      · simp only [ListMemory.unlink, update_of_ne he]
        exact (holds.forward other).congr fun key hm =>
          removeLink_of_ne (notItem he hm) (holds.neighbours_ne inside he hm).1
  case backward =>
      intro other
      by_cases he : other = list
      · subst he
        have chain := holds.backward other
        have distinctBack := List.nodup_reverse.mpr distinctHere
        rw [cut] at chain
        simp only [List.reverse_append, List.reverse_cons, List.append_assoc,
          List.singleton_append] at chain distinctBack
        simpa [ListMemory.unlink] using chain.remove distinctBack
      · simp only [ListMemory.unlink, update_of_ne he]
        exact (holds.backward other).congr fun key hm =>
          have hm := List.mem_reverse.mp hm
          removeLink_of_ne (notItem he hm) (holds.neighbours_ne inside he hm).2
  case owner =>
      intro key other
      simp only [ListMemory.unlink, update_apply]
      by_cases isItem : key = item
      · subst isItem
        by_cases he : other = list
        · simpa [he] using gone
        · simpa [he] using fun hm => notItem he hm rfl
      · by_cases he : other = list
        · subst he
          simp [isItem, holds.owner, cut]
        · simp [isItem, he, holds.owner]
  case free =>
      intro key unowned
      simp only [ListMemory.unlink, update_apply] at unowned
      split at unowned
      · rename_i isItem
        simp [ListMemory.unlink, removeLink, isItem]
      · rename_i isItem
        have outside := holds.owner_eq_none.mp unowned list
        obtain ⟨notLast, notFirst⟩ :=
          Chains.neighbours_ne fun hm => outside (inside key hm)
        simp only [ListMemory.unlink, removeLink_of_ne isItem notLast,
          removeLink_of_ne isItem notFirst]
        exact holds.free key unowned
  case distinct =>
      intro other
      simp only [update_apply]
      split
      · exact distinctRest
      · exact holds.distinct other

end Holds

attribute [local simp] takeOwnership releaseOwnership setNext setPrev replaceHead replaceTail
  insertLink_none insertLink_some removeLink_none removeLink_some bind Except.bind pure Except.pure

namespace Holds

variable {memory : ListMemory κ α} {lists : κ → List α} {list : κ} {item : α}

theorem pushFront_eq (holds : memory.Holds lists) (free : memory.owner item = none)
    : memory.pushFront list item = .ok (memory.link list none (lists list).head? item) := by
  have head : memory.head list = (lists list).head? := holds.head_eq
  have tail : memory.tail list = (lists list).getLast? := holds.tail_eq
  cases items : lists list with
  | nil => simp [ListMemory.pushFront, ListMemory.link, free, head, tail, items]
  | cons first rest => simp [ListMemory.pushFront, ListMemory.link, free, head, tail, items]

theorem pushBack_eq (holds : memory.Holds lists) (free : memory.owner item = none)
    : memory.pushBack list item = .ok (memory.link list (lists list).getLast? none item) := by
  have head : memory.head list = (lists list).head? := holds.head_eq
  have tail : memory.tail list = (lists list).getLast? := holds.tail_eq
  cases last : (lists list).getLast? with
  | none =>
      have empty : lists list = [] := List.getLast?_eq_none_iff.mp last
      simp [ListMemory.pushBack, ListMemory.link, free, head, tail, empty]
  | some before =>
      have occupied : lists list ≠ [] := fun empty => by simp [empty] at last
      simp [ListMemory.pushBack, ListMemory.link, free, head, tail, last, occupied]

/-- The cursor at the start of `back` inserts there. In front of the head it is a `push_front`,
at the ghost node a `push_back`.
-/
theorem insertBefore_eq (holds : memory.Holds lists) (free : memory.owner item = none)
    {front back : List α} (cut : lists list = front ++ back)
    : memory.insertBefore list back.head? item
      = .ok (memory.link list front.getLast? back.head? item) := by
  cases back with
  | nil =>
      rw [List.append_nil] at cut
      exact cut ▸ holds.pushBack_eq free
  | cons current rest =>
      have before := holds.prev_eq cut
      cases last : front.getLast? with
      | none =>
          have start : lists list = current :: rest := by
            simpa [List.getLast?_eq_none_iff.mp last] using cut
          have pushed : memory.pushFront list item = _ := holds.pushFront_eq free
          rw [start] at pushed
          simpa [ListMemory.insertBefore, before, last] using pushed
      | some prev =>
          have notCurrent : current ≠ item :=
            fun he => holds.owner_eq_none.mp free list (by simp [cut, ← he])
          -- `prev` of the new node is set before that of the current one
          have swapped :=
            update_comm notCurrent.symm (some prev) (some item) memory.prev
          simpa [ListMemory.insertBefore, ListMemory.link, before, last, free] using swapped

theorem remove_eq (holds : memory.Holds lists) {front back : List α}
    (cut : lists list = front ++ item :: back)
    : memory.remove list item = .ok (memory.unlink list front.getLast? back.head? item) := by
  have owner : memory.owner item = some list := (holds.owner item list).mpr (by simp [cut])
  have prev := holds.prev_eq cut
  have next := holds.next_eq cut
  have gone := (List.nodup_cons.mp (List.nodup_middle.mp (cut ▸ holds.distinct list))).1
  cases last : front.getLast? with
  | none =>
      cases first : back.head? with
      | none => simp [ListMemory.remove, ListMemory.unlink, prev, next, owner, last, first]
      | some behind => simp [ListMemory.remove, ListMemory.unlink, prev, next, owner, last, first]
  | some before =>
      -- the links of the item are read again after those of its neighbour have changed
      have notBefore : item ≠ before :=
        fun he => (Chains.neighbours_ne gone).1 (last.trans (congrArg some he.symm))
      cases first : back.head? with
      | none =>
          simp [ListMemory.remove, ListMemory.unlink, prev, next, owner, last, first, notBefore]
      | some behind =>
          simp [ListMemory.remove, ListMemory.unlink, prev, next, owner, last, first, notBefore]

theorem popFront_eq (holds : memory.Holds lists) {rest : List α}
    (cut : lists list = [] ++ item :: rest)
    : memory.popFront list = .ok (some item, memory.unlink list none rest.head? item) := by
  have owner : memory.owner item = some list := (holds.owner item list).mpr (by simp [cut])
  have head : memory.head list = some item := by simp [holds.head_eq, cut]
  have next : memory.next item = rest.head? := holds.next_eq cut
  cases first : rest.head? with
  | none => simp [ListMemory.popFront, ListMemory.unlink, head, next, owner, first]
  | some behind => simp [ListMemory.popFront, ListMemory.unlink, head, next, owner, first]

end Holds

end Scars.ListMemory
