/-! Insertion into a list in front of the first element that fails a test.
The order facts cover any relation the test agrees with, so one lemma serves different keys.
-/

namespace OrderedInsert

variable {α : Type} {passes : α → Bool} {item : α}

/-- Walks past the elements that pass and inserts `item` there. -/
def insertPast (passes : α → Bool) (item : α) : List α → List α
  | [] => [item]
  | head :: tail =>
      if passes head then
        head :: insertPast passes item tail
      else
        item :: head :: tail

/-- Insertion adds one occurrence and moves nothing out, by induction on the walk. -/
theorem insertPast_perm (passes : α → Bool) (item : α) (list : List α)
    : (insertPast passes item list).Perm (item :: list) := by
  induction list with
  | nil => exact .rfl
  | cons head tail ih =>
      unfold insertPast
      split
      · exact (ih.cons head).trans (.swap item head tail)
      · exact .rfl

@[simp]
theorem mem_insertPast {item other : α}
    : other ∈ insertPast passes item list ↔ other = item ∨ other ∈ list := by
  simp [(insertPast_perm passes item list).mem_iff]

theorem nodup_insertPast (absent : item ∉ list) (unique : list.Nodup)
    : (insertPast passes item list).Nodup :=
  (insertPast_perm passes item list).nodup_iff.mpr (List.nodup_cons.mpr ⟨absent, unique⟩)

/-- The walk only tests elements of the list, by induction on it. -/
theorem insertPast_congr {passes passes' : α → Bool}
    (he : ∀ other ∈ list, passes other = passes' other)
    : insertPast passes item list = insertPast passes' item list := by
  induction list with
  | nil => rfl
  | cons head tail ih =>
      simp only [insertPast, he head (by simp),
        ih fun other hm => he other (by simp [hm])]

/-- Insertion commutes with renaming the elements, by induction on the walk. -/
theorem insertPast_map {β : Type} (name : α → β) (passes : β → Bool) (item : α) (list : List α)
    : insertPast passes (name item) (list.map name)
      = (insertPast (fun other => passes (name other)) item list).map name := by
  induction list with
  | nil => rfl
  | cons head tail ih =>
      simp only [List.map_cons, insertPast]
      split
      · rw [ih, List.map_cons]
      · rfl

/-- Insertion keeps a list ordered when the passing elements belong before the item and the others
after it. Witness: induction on the walk; transitivity carries the order past the first failing
element.
-/
theorem pairwise_insertPast {before : α → α → Prop}
    (trans : ∀ {first second third}, before first second → before second third → before first third)
    (ordered : list.Pairwise before)
    (passed : ∀ other ∈ list, passes other = true → before other item)
    (failed : ∀ other ∈ list, passes other = false → before item other)
    : (insertPast passes item list).Pairwise before := by
  induction list with
  | nil => simp [insertPast]
  | cons head tail ih =>
      obtain ⟨first, rest⟩ := List.pairwise_cons.mp ordered
      unfold insertPast
      split
      next passing =>
        refine List.pairwise_cons.mpr ⟨?_, ih rest
          (fun other hm => passed other (by simp [hm]))
          (fun other hm => failed other (by simp [hm]))⟩
        intro other hm
        rcases mem_insertPast.mp hm with he | later
        · exact he ▸ passed head (by simp) passing
        · exact first other later
      next failing =>
        have ahead : before item head := failed head (by simp) (by simpa using failing)
        refine List.pairwise_cons.mpr ⟨?_, ordered⟩
        intro other hm
        rcases List.mem_cons.mp hm with he | later
        · exact he ▸ ahead
        · exact trans ahead (first other later)

/-- The walk stops between the elements that pass and the first that does not, by induction on
those that pass.
-/
theorem insertPast_between {front back : List α} (passed : ∀ other ∈ front, passes other = true)
    (stops : ∀ other ∈ back.head?, passes other = false)
    : insertPast passes item (front ++ back) = front ++ item :: back := by
  induction front with
  | nil =>
      cases back with
      | nil => rfl
      | cons first rest =>
          have stop : passes first = false := stops first rfl
          simp [insertPast, stop]
  | cons head tail ih =>
      have pass : passes head = true := passed head (by simp)
      have rest := ih fun other hm => passed other (by simp [hm])
      simp [insertPast, pass, rest]

theorem filter_insertPast_of_not {passes selects : α → Bool} (skipped : selects item = false)
    (list : List α)
    : (insertPast passes item list).filter selects = list.filter selects := by
  induction list with
  | nil => simp [insertPast, skipped]
  | cons head tail ih =>
      unfold insertPast
      split
      · simp only [List.filter_cons, ih]
      · rw [List.filter_cons_of_neg (by simp [skipped])]

/-- A selected item joins the selection last when the walk passes all selected elements and nothing
passes behind one that does not. Witness: induction on the walk.
-/
theorem filter_insertPast_last {passes selects : α → Bool} (selected : selects item = true)
    (passed : ∀ other ∈ list, selects other = true → passes other = true)
    (monotone : list.Pairwise fun first second => passes first = false → passes second = false)
    : (insertPast passes item list).filter selects = list.filter selects ++ [item] := by
  induction list with
  | nil => simp [insertPast, selected]
  | cons head tail ih =>
      obtain ⟨first, rest⟩ := List.pairwise_cons.mp monotone
      unfold insertPast
      split
      next =>
        rw [List.filter_cons, List.filter_cons,
          ih (fun other hm => passed other (by simp [hm])) rest]
        split <;> rfl
      next failing =>
        have none : (head :: tail).filter selects = [] := by
          refine List.filter_eq_nil_iff.mpr fun other hm chosen => ?_
          have passing := passed other hm chosen
          rcases List.mem_cons.mp hm with rfl | later
          · exact failing passing
          · simp [first other later (by simpa using failing)] at passing
        rw [List.filter_cons_of_pos selected, none, List.nil_append]

/-- No element of the list has a larger key than an earlier one. -/
def Descending (key : α → Nat) (list : List α) : Prop :=
  list.Pairwise fun first second => key second ≤ key first

variable {key : α → Nat} {list : List α}

theorem Descending.insertPast (descending : Descending key list)
    (passed : ∀ other, passes other = true → key item ≤ key other)
    (failed : ∀ other, passes other = false → key other ≤ key item)
    : Descending key (insertPast passes item list) := by
  refine pairwise_insertPast ?_ descending (fun other _ => passed other)
    (fun other _ => failed other)
  exact fun left right => Nat.le_trans right left

theorem Descending.sublist {fewer : List α} (descending : Descending key list)
    (kept : fewer.Sublist list)
    : Descending key fewer :=
  List.Pairwise.sublist kept descending

theorem Descending.congr {other : α → Nat} (descending : Descending key list)
    (he : ∀ item ∈ list, other item = key item)
    : Descending other list := by
  refine List.Pairwise.imp_of_mem ?_ descending
  intro first second firstMember secondMember before
  rw [he first firstMember, he second secondMember]
  exact before

theorem Descending.le_head {head : α} {tail : List α} (descending : Descending key (head :: tail))
    : ∀ item ∈ head :: tail, key item ≤ key head := by
  intro item hm
  rcases List.mem_cons.mp hm with rfl | later
  · exact Nat.le_refl _
  · exact List.rel_of_pairwise_cons descending later

theorem takeWhile_congr {passes passes' : α → Bool}
    (he : ∀ item ∈ list, passes item = passes' item)
    : list.takeWhile passes = list.takeWhile passes'
      ∧ list.dropWhile passes = list.dropWhile passes' := by
  induction list with
  | nil => simp
  | cons head tail ih =>
      have rest := ih fun item hm => he item (by simp [hm])
      simp [List.takeWhile_cons, List.dropWhile_cons, he head (by simp), rest]

/-- In a sorted list the elements up to the first late one are all the early ones. -/
theorem takeWhile_of_sorted {time : α → Nat} (now : Nat)
    (sorted : list.Pairwise fun first second => time first ≤ time second)
    : list.takeWhile (fun item => decide (time item ≤ now))
        = list.filter (fun item => decide (time item ≤ now))
      ∧ list.dropWhile (fun item => decide (time item ≤ now))
        = list.filter (fun item => decide (now < time item)) := by
  induction list with
  | nil => simp
  | cons head tail ih =>
      obtain ⟨first, rest⟩ := List.pairwise_cons.mp sorted
      by_cases early : time head ≤ now
      · simp [early, ih rest]
      · have late : ∀ item ∈ tail, now < time item := fun item hm => by
          have := first item hm
          omega
        have none : tail.filter (fun item => decide (time item ≤ now)) = [] :=
          List.filter_eq_nil_iff.mpr fun item hm => by
            have := late item hm
            simp only [decide_eq_true_eq]
            omega
        have all : tail.filter (fun item => decide (now < time item)) = tail :=
          List.filter_eq_self.mpr fun item hm => decide_eq_true (late item hm)
        simp [early, none, all, Nat.not_le.mp early]

end OrderedInsert
