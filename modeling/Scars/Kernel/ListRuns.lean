import Scars.Foundation.Answers
import Scars.Kernel.ListRefinement

/-! Sequences of list operations, compared with operations on plain lists.
-/

namespace Scars

open Answers OrderedInsert Function

variable {κ α : Type} [DecidableEq κ] [DecidableEq α]

inductive ListOp (κ α : Type) where
  | pushFront (list : κ) (item : α)
  | pushBack (list : κ) (item : α)
  | insertAfter (list : κ) (item : α) (predicate : α → Bool)
  | popFront (list : κ)
  | popFrontIf (list : κ) (predicate : α → Bool)
  | remove (list : κ) (item : α)

/-- The item returned, if the operation returns one, and the memory. -/
def ListMemory.perform (fuel : Nat) (memory : ListMemory κ α)
    : ListOp κ α → Except ListFault (Option α × ListMemory κ α)
  | .pushFront list item => (memory.pushFront list item).map fun memory => (none, memory)
  | .pushBack list item => (memory.pushBack list item).map fun memory => (none, memory)
  | .insertAfter list item predicate =>
      (memory.insertAfter fuel list item predicate).map fun memory => (none, memory)
  | .popFront list => memory.popFront list
  | .popFrontIf list predicate => memory.popFrontIf list predicate
  | .remove list item => (memory.remove list item).map fun memory => (none, memory)

namespace ListOp

/-- The operations on plain lists. -/
def perform (lists : κ → List α) : ListOp κ α → Option α × (κ → List α)
  | .pushFront list item => (none, update lists list (item :: lists list))
  | .pushBack list item => (none, update lists list (lists list ++ [item]))
  | .insertAfter list item predicate =>
      (none, update lists list (insertPast predicate item (lists list)))
  | .popFront list => ((lists list).head?, update lists list (lists list).tail)
  | .popFrontIf list predicate =>
      if (lists list).head?.any predicate then
        ((lists list).head?, update lists list (lists list).tail)
      else
        (none, lists)
  | .remove list item => (none, update lists list ((lists list).erase item))

/-- An item is inserted only while in no list and removed only from the list it is in. -/
def Proper (lists : κ → List α) : ListOp κ α → Prop
  | .pushFront _ item => ∀ list, item ∉ lists list
  | .pushBack _ item => ∀ list, item ∉ lists list
  | .insertAfter _ item _ => ∀ list, item ∉ lists list
  | .popFront _ => True
  | .popFrontIf _ _ => True
  | .remove list item => item ∈ lists list

theorem length_perform_le (lists : κ → List α) (op : ListOp κ α) (list : κ)
    : ((op.perform lists).2 list).length ≤ (lists list).length + 1 := by
  have updated {items : List α} {changed : κ} (short : items.length ≤ (lists changed).length + 1)
      : (update lists changed items list).length ≤ (lists list).length + 1 := by
    rw [update_apply]
    split
    · rename_i he
      exact he ▸ short
    · exact Nat.le_succ _
  cases op with
  | pushFront changed item => exact updated (by simp)
  | pushBack changed item => exact updated (by simp)
  | insertAfter changed item predicate =>
      exact updated (Nat.le_of_eq (insertPast_perm predicate item (lists changed)).length_eq)
  | popFront changed => exact updated (by simp; omega)
  | popFrontIf changed predicate =>
      simp only [perform]
      split
      · exact updated (by simp; omega)
      · exact Nat.le_succ _
  | remove changed item => exact updated (Nat.le_succ_of_le List.length_erase_le)

/-- No list has more items than there were operations, by induction on the operations. -/
theorem permitted_short {fuel : Nat} {lists : κ → List α} {ops : List (ListOp κ α)}
    (proper : Permitted perform Proper lists ops)
    (enough : ∀ list, (lists list).length + ops.length ≤ fuel)
    : Permitted perform (fun lists op => Proper lists op ∧ ∀ list, (lists list).length < fuel)
        lists ops := by
  induction ops generalizing lists with
  | nil => trivial
  | cons op later ih =>
      simp only [List.length_cons] at enough
      refine ⟨⟨proper.1, fun list => ?_⟩, ih proper.2 fun list => ?_⟩
      · have := enough list
        omega
      · have := enough list
        have := length_perform_le lists op list
        omega

end ListOp

namespace ListMemory.Holds

variable {memory : ListMemory κ α} {lists : κ → List α} {list : κ} {item : α}

section

variable (holds : memory.Holds lists)
include holds

section

variable (free : memory.owner item = none)
include free

/-- The loop stops at the first item that fails and links the new one in front of it. Witness:
induction on the items from the cursor on; the items that passed are the front of the cut.
-/
theorem insertAfterLoop_eq (predicate : α → Bool) {fuel : Nat} {front back : List α}
    (cut : lists list = front ++ back) (enough : back.length < fuel)
    : ∃ memory',
        insertAfterLoop list item predicate memory fuel back.head? = .ok memory'
        ∧ memory'.Holds (update lists list (front ++ insertPast predicate item back)) := by
  induction back generalizing front fuel with
  | nil =>
      obtain ⟨fuel, rfl⟩ := Nat.exists_eq_add_one_of_ne_zero (Nat.ne_of_gt enough)
      exact ⟨_, holds.insertBefore_eq free cut, holds.link cut free⟩
  | cons current rest ih =>
      obtain ⟨fuel, rfl⟩ := Nat.exists_eq_add_one_of_ne_zero (Nat.ne_zero_of_lt enough)
      simp only [List.head?_cons, insertAfterLoop, insertPast]
      split
      · have moved : memory.moveNext list (some current) = rest.head? := holds.next_eq cut
        rw [moved]
        have cutBehind : lists list = (front ++ [current]) ++ rest := by simp [cut]
        obtain ⟨memory', looped, next⟩ :=
          ih cutBehind (Nat.lt_of_succ_lt_succ enough)
        exact ⟨memory', looped, by simpa using next⟩
      · exact ⟨_, holds.insertBefore_eq free cut, holds.link cut free⟩

theorem pushFront
    : ∃ memory',
        memory.pushFront list item = .ok memory'
        ∧ memory'.Holds (update lists list (item :: lists list)) := by
  have cut : lists list = [] ++ lists list := rfl
  exact ⟨_, holds.pushFront_eq free, holds.link cut free⟩

theorem pushBack
    : ∃ memory',
        memory.pushBack list item = .ok memory'
        ∧ memory'.Holds (update lists list (lists list ++ [item])) := by
  have cut : lists list = lists list ++ [] := (List.append_nil _).symm
  exact ⟨_, holds.pushBack_eq free, holds.link cut free⟩

theorem insertAfter (predicate : α → Bool) {fuel : Nat} (enough : (lists list).length < fuel)
    : ∃ memory',
        memory.insertAfter fuel list item predicate = .ok memory'
        ∧ memory'.Holds
            (update lists list (insertPast predicate item (lists list))) := by
  have cut : lists list = [] ++ lists list := rfl
  rw [ListMemory.insertAfter, holds.head_eq]
  exact holds.insertAfterLoop_eq free predicate cut enough

end

theorem popFront (list : κ)
    : ∃ memory',
        memory.popFront list = .ok ((lists list).head?, memory')
        ∧ memory'.Holds (update lists list (lists list).tail) := by
  cases items : lists list with
  | nil =>
      have head : memory.head list = none := by simp [holds.head_eq, items]
      have unchanged : memory.replaceHead list none = memory := by
        rw [replaceHead, ← head, update_eq_self]
      refine ⟨memory, ?_, ?_⟩
      · simp [ListMemory.popFront, head, unchanged]
      · rw [List.tail_nil, ← items, update_eq_self]
        exact holds
  | cons first rest =>
      have cut : lists list = [] ++ first :: rest := items
      exact ⟨_, holds.popFront_eq cut, holds.unlink cut⟩

theorem popFrontIf (list : κ) (predicate : α → Bool)
    : ∃ memory',
        memory.popFrontIf list predicate
          = .ok (((ListOp.popFrontIf list predicate).perform lists).1, memory')
        ∧ memory'.Holds ((ListOp.popFrontIf list predicate).perform lists).2 := by
  rw [ListMemory.popFrontIf, holds.head_eq, ListOp.perform]
  cases first : (lists list).head? with
  | none => exact ⟨memory, rfl, holds⟩
  | some head =>
      simp only [Option.any_some]
      split
      · exact first ▸ holds.popFront list
      · exact ⟨memory, rfl, holds⟩

theorem remove (hm : item ∈ lists list)
    : ∃ memory',
        memory.remove list item = .ok memory'
        ∧ memory'.Holds (update lists list ((lists list).erase item)) := by
  obtain ⟨front, back, cut⟩ := List.append_of_mem hm
  have gone : item ∉ front := by
    have distinct := holds.distinct list
    rw [cut, List.nodup_middle, List.nodup_cons] at distinct
    exact fun within => distinct.1 (List.mem_append_left back within)
  have erased : (lists list).erase item = front ++ back := by
    rw [cut, List.erase_append_right _ gone, List.erase_cons_head]
  exact ⟨_, holds.remove_eq cut, erased ▸ holds.unlink cut⟩

/-- An operation that is proper answers as on plain lists, and the memory holds the lists after
it.
-/
theorem perform {fuel : Nat} {op : ListOp κ α} (proper : op.Proper lists)
    (enough : ∀ list, (lists list).length < fuel)
    : ∃ memory',
        memory.perform fuel op = .ok ((op.perform lists).1, memory')
        ∧ memory'.Holds (op.perform lists).2 := by
  cases op with
  | pushFront list item =>
      obtain ⟨memory', pushed, next⟩ := holds.pushFront (holds.owner_eq_none.mpr proper)
      exact ⟨memory', by rw [ListMemory.perform, pushed]; rfl, next⟩
  | pushBack list item =>
      obtain ⟨memory', pushed, next⟩ := holds.pushBack (holds.owner_eq_none.mpr proper)
      exact ⟨memory', by rw [ListMemory.perform, pushed]; rfl, next⟩
  | insertAfter list item predicate =>
      obtain ⟨memory', hi, next⟩ :=
        holds.insertAfter (holds.owner_eq_none.mpr proper) predicate (enough list)
      exact ⟨memory', by rw [ListMemory.perform, hi]; rfl, next⟩
  | popFront list => exact holds.popFront list
  | popFrontIf list predicate => exact holds.popFrontIf list predicate
  | remove list item =>
      obtain ⟨memory', removed, next⟩ := holds.remove proper
      exact ⟨memory', by rw [ListMemory.perform, removed]; rfl, next⟩

end

end ListMemory.Holds

namespace ListMemory

/-- If an item is inserted only while in no list and removed only from the list it is in: no
operation fails, each answers as on plain lists, and the memory holds these lists at the end. As
many rounds as there were operations are enough for `insert_after`, and as many steps as a list has
items for a traversal.
-/
theorem linkedList_refines {ops : List (ListOp κ α)} {fuel : Nat} {answered : List (Option α)}
    {lists : κ → List α} (enough : ops.length ≤ fuel)
    (proper : Permitted ListOp.perform ListOp.Proper (fun _ => []) ops)
    (plain : specified ListOp.perform (fun _ => []) ops = (answered, lists))
    : ∃ memory,
        answers (perform fuel) new ops = .ok (answered, memory)
        ∧ memory.Holds lists
        ∧ (∀ item,
            (∀ list, item ∉ lists list)
            → memory.owner item = none ∧ memory.next item = none ∧ memory.prev item = none)
        ∧ (∀ list other item, item ∈ lists list → item ∈ lists other → list = other)
        ∧ ∀ list steps,
            (lists list).length ≤ steps
            → memory.traverse steps list = some (lists list)
              ∧ memory.traverseBack steps list = some (lists list).reverse := by
  have short := ListOp.permitted_short proper (fun _ => by simpa using enough)
  obtain ⟨memory, ran, holds⟩ :=
    agrees_of_permitted (fun memory lists op (holds : memory.Holds lists) permitted =>
      holds.perform permitted.1 permitted.2) holds_new short
  rw [plain] at ran holds
  refine ⟨memory, ran, holds, fun item absent => ?_, fun _ _ _ => holds.eq_of_mem, ?_⟩
  · have free := holds.owner_eq_none.mpr absent
    exact ⟨free, holds.free item free⟩
  · intro list steps within
    have withinBack : (lists list).reverse.length ≤ steps := by simpa using within
    exact ⟨(holds.forward list).follow within, (holds.backward list).follow withinBack⟩

/-- Items are inserted at both ends and in the middle, change their list and are removed. -/
def moves : List (ListOp Bool Nat) :=
  [.pushBack false 1, .pushBack false 5, .insertAfter false 3 (· < 4), .popFront false,
    .pushFront true 1, .popFrontIf true (· < 1), .remove false 5]

theorem linkedList_refines_moves
    : ∃ memory,
        answers (perform 7) new moves
          = .ok ([none, none, none, some 1, none, none, none], memory)
        ∧ memory.traverse 1 false = some [3] ∧ memory.traverseBack 1 true = some [1] := by
  have enough : moves.length ≤ 7 := by decide
  have proper : Permitted ListOp.perform ListOp.Proper (fun _ => []) moves := by
    simp [moves, Permitted, ListOp.Proper, ListOp.perform, insertPast]
  obtain ⟨memory, ran, -, -, -, traversed⟩ := linkedList_refines enough proper rfl
  exact ⟨memory, ran, (traversed false 1 (by decide)).1, (traversed true 1 (by decide)).2⟩

end ListMemory

end Scars
