import Mathlib.Data.List.Nodup
import Mathlib.Logic.Function.Basic

/-! Chains of links through shared nodes.
A link is a partial function of keys, so one predicate serves both directions of a doubly linked
list: the second is a chain of the reversed keys.
-/

namespace Chains

open Function

variable {α : Type} {link : α → Option α} {first : Option α} {front back : List α} {keys : List α}
  {key : α}

/-- The links from `first` on pass through exactly the listed keys, and the last one ends. -/
def Chain (link : α → Option α) (first : Option α) : List α → Prop
  | [] => first = none
  | key :: rest => first = some key ∧ Chain link (link key) rest

/-- Follows the links up to a bound on their number; `none` if the bound is used up. -/
def follow (link : α → Option α) : Nat → Option α → Option (List α)
  | _, none => some []
  | 0, some _ => none
  | fuel + 1, some key => (follow link fuel (link key)).map (key :: ·)

theorem Chain.first_eq (chain : Chain link first keys)
    : first = keys.head? := by
  cases keys with
  | nil => exact chain
  | cons key rest => exact chain.1

/-- A chain depends on the links of its own nodes only, by induction on the keys. -/
theorem Chain.congr {link link' : α → Option α} (chain : Chain link first keys)
    (he : ∀ key ∈ keys, link' key = link key)
    : Chain link' first keys := by
  induction keys generalizing first with
  | nil => exact chain
  | cons key rest ih =>
      refine ⟨chain.1, ?_⟩
      rw [he key (by simp)]
      exact ih chain.2 fun other hm => he other (by simp [hm])

/-- The keys behind a front part form a chain of their own, by induction on the front. -/
theorem Chain.of_append (chain : Chain link first (front ++ back))
    : Chain link back.head? back := by
  induction front generalizing first with
  | nil => exact chain.first_eq ▸ chain
  | cons key rest ih => exact ih chain.2

theorem Chain.link_eq (chain : Chain link first (front ++ key :: back))
    : link key = back.head? :=
  chain.of_append.2.first_eq

/-- The part behind `front` is replaced once the last link of `front` leads to the new part.
Witness: induction on `front`; its links before the last one are as they were.
-/
theorem Chain.graft {link link' : α → Option α} {front back back' : List α}
    (chain : Chain link first (front ++ back)) (grafted : Chain link' back'.head? back')
    (he : ∀ key ∈ front.dropLast, link' key = link key)
    (joined : ∀ key, front.getLast? = some key → link' key = back'.head?)
    : Chain link' (if front = [] then back'.head? else first) (front ++ back') := by
  induction front generalizing first with
  | nil => exact grafted
  | cons key rest ih =>
      refine ⟨chain.1, ?_⟩
      cases rest with
      | nil => exact joined key rfl ▸ grafted
      | cons next later =>
          rw [he key (by simp)]
          exact ih chain.2 (fun other hm => he other (by simp [hm])) joined

/-- A chain is followed to its end whenever the bound covers its keys, by induction on them. -/
theorem Chain.follow (chain : Chain link first keys) {fuel : Nat} (enough : keys.length ≤ fuel)
    : follow link fuel first = some keys := by
  induction keys generalizing first fuel with
  | nil =>
      rw [chain.first_eq]
      cases fuel <;> rfl
  | cons key rest ih =>
      cases fuel with
      | zero => exact absurd enough (by simp)
      | succ fuel =>
          rw [chain.1, Chains.follow, ih chain.2 (Nat.le_of_succ_le_succ enough)]
          rfl

/-- Of distinct keys only the last one of the front part is its last. -/
theorem getLast?_ne_of_distinct (distinct : (front ++ back).Nodup)
    (hm : key ∈ front.dropLast ∨ key ∈ back)
    : front.getLast? ≠ some key := by
  intro last
  obtain ⟨rest, rfl⟩ := List.getLast?_eq_some_iff.mp last
  simp only [List.dropLast_concat, List.append_assoc, List.singleton_append] at hm distinct
  have apart := List.nodup_middle.mp distinct
  simp only [List.nodup_cons, List.mem_append] at apart
  exact apart.1 hm

theorem neighbours_ne (outside : key ∉ front ++ back)
    : front.getLast? ≠ some key ∧ back.head? ≠ some key := by
  constructor
  · exact fun last => outside (List.mem_append_left back (List.mem_of_getLast? last))
  · exact fun first => outside (List.mem_append_right front (List.mem_of_head? first))

variable [DecidableEq α] {before behind : Option α}

/-- The links once `item` stands between `before` and `behind`. -/
def insertLink (link : α → Option α) (before behind : Option α) (item : α) : α → Option α :=
  fun key =>
    if key = item then
      behind
    else if before = some key then
      some item
    else
      link key

/-- The links once `item`, which stood between `before` and `behind`, has left. -/
def removeLink (link : α → Option α) (before behind : Option α) (item : α) : α → Option α :=
  fun key =>
    if key = item then
      none
    else if before = some key then
      behind
    else
      link key

theorem insertLink_of_ne {item key : α} (notItem : key ≠ item) (notBefore : before ≠ some key)
    : insertLink link before behind item key = link key := by
  simp [insertLink, notItem, notBefore]

theorem removeLink_of_ne {item key : α} (notItem : key ≠ item) (notBefore : before ≠ some key)
    : removeLink link before behind item key = link key := by
  simp [removeLink, notItem, notBefore]

theorem insertLink_none (link : α → Option α) (behind : Option α) (item : α)
    : insertLink link none behind item = update link item behind := by
  funext other
  simp [insertLink, update_apply]

theorem insertLink_some (link : α → Option α) (behind : Option α) (key item : α)
    : insertLink link (some key) behind item
      = update (update link key (some item)) item behind := by
  funext other
  simp [insertLink, update_apply, eq_comm]

theorem removeLink_none (link : α → Option α) (behind : Option α) (item : α)
    : removeLink link none behind item = update link item none := by
  funext other
  simp [removeLink, update_apply]

theorem removeLink_some (link : α → Option α) (behind : Option α) (key item : α)
    : removeLink link (some key) behind item
      = update (update link key behind) item none := by
  funext other
  simp [removeLink, update_apply, eq_comm]

theorem Chain.insert {item : α} (chain : Chain link first (front ++ back))
    (distinct : (front ++ back).Nodup) (absent : item ∉ front ++ back)
    : Chain (insertLink link front.getLast? back.head? item)
        (if front.getLast? = none then some item else first) (front ++ item :: back) := by
  have notItem {key : α} (hm : key ∈ front ++ back) : key ≠ item :=
    fun he => absent (he ▸ hm)
  have behind : Chain (insertLink link front.getLast? back.head? item) back.head? back :=
    chain.of_append.congr fun key hm =>
      insertLink_of_ne (notItem (by simp [hm]))
        (getLast?_ne_of_distinct distinct (.inr hm))
  have grafted
      : Chain (insertLink link front.getLast? back.head? item) (item :: back).head?
          (item :: back) := by
    refine ⟨rfl, ?_⟩
    rw [show insertLink link front.getLast? back.head? item item = back.head? by simp [insertLink]]
    exact behind
  simp only [List.getLast?_eq_none_iff]
  refine chain.graft grafted (fun key hm => ?_) fun key last => ?_
  · exact insertLink_of_ne (notItem (by simp [List.dropLast_subset front hm]))
      (getLast?_ne_of_distinct distinct (.inl hm))
  · have hm : key ∈ front := List.mem_of_getLast? last
    simp [insertLink, notItem (List.mem_append_left back hm), last]

theorem Chain.remove {item : α} (chain : Chain link first (front ++ item :: back))
    (distinct : (front ++ item :: back).Nodup)
    : Chain (removeLink link front.getLast? back.head? item)
        (if front.getLast? = none then back.head? else first) (front ++ back) := by
  have notItem {key : α} (hm : key ∈ front ++ back) : key ≠ item :=
    fun he => (List.nodup_cons.mp (List.nodup_middle.mp distinct)).1 (he ▸ hm)
  have grafted : Chain (removeLink link front.getLast? back.head? item) back.head? back := by
    have behind : Chain link first ((front ++ [item]) ++ back) := by simpa using chain
    refine behind.of_append.congr fun key hm => ?_
    exact removeLink_of_ne (notItem (by simp [hm]))
      (getLast?_ne_of_distinct distinct (.inr (by simp [hm])))
  simp only [List.getLast?_eq_none_iff]
  refine chain.graft grafted (fun key hm => ?_) fun key last => ?_
  · exact removeLink_of_ne (notItem (by simp [List.dropLast_subset front hm]))
      (getLast?_ne_of_distinct distinct (.inl hm))
  · have hm : key ∈ front := List.mem_of_getLast? last
    simp [removeLink, notItem (List.mem_append_left back hm), last]

end Chains
