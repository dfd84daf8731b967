import Mathlib.Data.List.Nodup

/-! Counting the elements of an arbitrary type that have a property, from below.
At least `count` have it when that many distinct ones can be listed. The rules follow a change of
the property at one element.
-/

/-- At least `count` elements have the property. -/
def AtLeast {α : Type} (count : Nat) (holds : α → Prop) : Prop :=
  ∃ members : List α, members.Nodup ∧ (∀ member ∈ members, holds member) ∧ count ≤ members.length

namespace AtLeast

variable {α : Type} {count : Nat} {before after : α → Prop}

theorem zero : AtLeast 0 before := ⟨[], .nil, by simp, Nat.le_refl 0⟩

section

variable (enough : AtLeast count before)
include enough

theorem mono (keeps : ∀ member, before member → after member)
    : AtLeast count after := by
  obtain ⟨members, distinct, all, long⟩ := enough
  exact ⟨members, distinct, fun member listed => keeps member (all member listed), long⟩

theorem fewer {less : Nat} (bound : less ≤ count)
    : AtLeast less before := by
  obtain ⟨members, distinct, all, long⟩ := enough
  exact ⟨members, distinct, all, Nat.le_trans bound long⟩

theorem gain {element : α} (keeps : ∀ member, before member → after member)
    (lacked : ¬ before element) (gains : after element)
    : AtLeast (count + 1) after := by
  obtain ⟨members, distinct, all, long⟩ := enough
  refine ⟨element :: members, List.nodup_cons.mpr ⟨?_, distinct⟩, ?_, Nat.succ_le_succ long⟩
  · intro listed
    exact lacked (all element listed)
  · intro member listed
    rcases List.mem_cons.mp listed with rfl | other
    · exact gains
    · exact keeps member (all member other)

theorem lose [DecidableEq α] {element : α}
    (keeps : ∀ member, member ≠ element → before member → after member)
    : AtLeast (count - 1) after := by
  obtain ⟨members, distinct, all, long⟩ := enough
  refine ⟨members.erase element, distinct.erase element, ?_, ?_⟩
  · intro member listed
    obtain ⟨hne, kept⟩ := distinct.mem_erase_iff.mp listed
    exact keeps member hne (all member kept)
  · have shorter : members.length - 1 ≤ (members.erase element).length :=
      List.le_length_erase
    omega

theorem pass [DecidableEq α] {giver taker : α}
    (keeps : ∀ member, member ≠ giver → before member → after member) (lacked : ¬ before taker)
    (gains : after taker)
    : AtLeast count after := by
  have without : AtLeast (count - 1) fun member => before member ∧ member ≠ giver :=
    enough.lose fun member hne held => ⟨held, hne⟩
  have passed : AtLeast (count - 1 + 1) after := by
    apply without.gain _ _ gains
    · intro member held
      exact keeps member held.2 held.1
    · intro held
      exact lacked held.1
  exact passed.fewer (by omega)

theorem exists_of_pos (positive : 0 < count)
    : ∃ member, before member := by
  obtain ⟨members, -, all, long⟩ := enough
  obtain ⟨member, listed⟩ := List.exists_mem_of_length_pos (Nat.lt_of_lt_of_le positive long)
  exact ⟨member, all member listed⟩

end

end AtLeast
