/-! Thread and interrupt priorities, and the status word that may hold none.
Every interrupt priority is above every thread priority. Comparisons are computed by the
source's case analysis and then read off a natural-number rank.
-/

namespace Scars

/-- `const fn maxu8`. -/
def maxu8 (left right : UInt8) : UInt8 := if left > right then left else right

inductive Priority where
  | thread (level : UInt8)
  | interrupt (level : UInt8)
  deriving DecidableEq, Repr

namespace Priority

/-- `Priority::MIN`, the lowest thread priority. -/
def MIN : Priority := .thread 0

/-- `Priority::max`. -/
def max : Priority → Priority → Priority
  | .thread p1, .thread p2 => .thread (maxu8 p1 p2)
  | .interrupt p1, .interrupt p2 => .interrupt (maxu8 p1 p2)
  | .thread _, .interrupt p2 => .interrupt p2
  | .interrupt p1, .thread _ => .interrupt p1

/-- `Ord::cmp` for priorities. -/
def cmp : Priority → Priority → Ordering
  | .thread p1, .thread p2 => compare p1 p2
  | .interrupt p1, .interrupt p2 => compare p1 p2
  | .thread _, .interrupt _ => .lt
  | .interrupt _, .thread _ => .gt

instance : LT Priority := ⟨fun left right => left.cmp right = .lt⟩

instance : LE Priority := ⟨fun left right => left.cmp right ≠ .gt⟩

instance (left right : Priority) : Decidable (left < right) :=
  inferInstanceAs (Decidable (left.cmp right = .lt))

instance (left right : Priority) : Decidable (left ≤ right) :=
  inferInstanceAs (Decidable (left.cmp right ≠ .gt))

/-- The position of a priority in the total order of all priorities. -/
def rank : Priority → Nat
  | .thread level => level.toNat
  | .interrupt level => 256 + level.toNat

end Priority

/-- `PriorityStatus`: a priority, or none at all. -/
inductive PriorityStatus where
  | invalid
  | thread (level : UInt8)
  | interrupt (level : UInt8)
  deriving DecidableEq, Repr

namespace PriorityStatus

/-- `PriorityStatus::valid` and `From<Priority>`. -/
def valid : Priority → PriorityStatus
  | .thread level => .thread level
  | .interrupt level => .interrupt level

def isValid : PriorityStatus → Bool
  | .invalid => false
  | _ => true

def priority : PriorityStatus → Option Priority
  | .thread level => some (.thread level)
  | .interrupt level => some (.interrupt level)
  | .invalid => none

/-- `PriorityStatus::max`; an invalid status is below everything. -/
def max : PriorityStatus → PriorityStatus → PriorityStatus
  | .thread p1, .thread p2 => .thread (maxu8 p1 p2)
  | .interrupt p1, .interrupt p2 => .interrupt (maxu8 p1 p2)
  | .thread _, .interrupt p2 => .interrupt p2
  | .interrupt p1, .thread _ => .interrupt p1
  | .invalid, other => other
  | self, .invalid => self

/-- `PriorityStatus::unwrap_or_default`. -/
def unwrapOrDefault (self : PriorityStatus) (default : Priority) : Priority :=
  match self with
  | .invalid => default
  | .thread level => .thread level
  | .interrupt level => .interrupt level

/-- `PartialOrd::partial_cmp`: an invalid status is comparable with nothing. -/
def partialCmp : PriorityStatus → PriorityStatus → Option Ordering
  | .thread p1, .thread p2 => some (compare p1 p2)
  | .interrupt p1, .interrupt p2 => some (compare p1 p2)
  | .thread _, .interrupt _ => some .lt
  | .interrupt _, .thread _ => some .gt
  | .invalid, _ => none
  | _, .invalid => none

/-- The operator `>=` that `PartialOrd` derives from `partial_cmp`. -/
def ge (left right : PriorityStatus) : Bool :=
  match left.partialCmp right with
  | some .gt => true
  | some .eq => true
  | _ => false

/-- The position of a status in the order with the invalid one at the bottom. -/
def rank : PriorityStatus → Nat
  | .invalid => 0
  | .thread level => level.toNat + 1
  | .interrupt level => 256 + level.toNat + 1

end PriorityStatus

/-- `Priority::max_valid`: the maximum with a status, ignoring an invalid one. -/
def Priority.maxValid (self : Priority) (other : PriorityStatus) : Priority :=
  match other.priority with
  | some priority => self.max priority
  | none => self

theorem maxu8_toNat (left right : UInt8)
    : (maxu8 left right).toNat = Max.max left.toNat right.toNat := by
  unfold maxu8
  split
  next above =>
    have := UInt8.lt_iff_toNat_lt.mp above
    exact (Nat.max_eq_left (by omega)).symm
  next notAbove =>
    have := mt UInt8.lt_iff_toNat_lt.mpr notAbove
    exact (Nat.max_eq_right (by omega)).symm

theorem compare_toNat (left right : UInt8)
    : compare left right = compare left.toNat right.toNat := by
  simp only [compare, compareOfLessAndEq, UInt8.lt_iff_toNat_lt, ← UInt8.toNat_inj]

/-- Comparing priorities compares their ranks, by cases on both kinds. -/
theorem Priority.cmp_rank (left right : Priority)
    : left.cmp right = compare left.rank right.rank := by
  have bound (level : UInt8) : level.toNat < 256 := level.toNat_lt
  cases left with
  | thread p1 =>
      cases right with
      | thread p2 => exact compare_toNat p1 p2
      | interrupt p2 =>
          have := bound p1
          exact (Nat.compare_eq_lt.mpr (by simp only [rank]; omega)).symm
  | interrupt p1 =>
      cases right with
      | thread p2 =>
          have := bound p2
          exact (Nat.compare_eq_gt.mpr (by simp only [rank]; omega)).symm
      | interrupt p2 =>
          rw [cmp, compare_toNat]
          simp only [rank, compare, compareOfLessAndEq, Nat.add_lt_add_iff_left,
            Nat.add_left_cancel_iff]

variable {left right : Priority}

theorem Priority.lt_iff : left < right ↔ left.rank < right.rank := by
  change left.cmp right = .lt ↔ _
  rw [cmp_rank, Nat.compare_eq_lt]

theorem Priority.le_iff : left ≤ right ↔ left.rank ≤ right.rank := by
  change left.cmp right ≠ .gt ↔ _
  rw [cmp_rank, Ne, Nat.compare_eq_gt]
  omega

theorem Priority.rank_injective (he : left.rank = right.rank)
    : left = right := by
  have bound (level : UInt8) : level.toNat < 256 := level.toNat_lt
  cases left with
  | thread p1 =>
      cases right with
      | thread p2 => exact congrArg _ (UInt8.toNat_inj.mp he)
      | interrupt p2 =>
          have := bound p1
          simp only [rank] at he
          omega
  | interrupt p1 =>
      cases right with
      | thread p2 =>
          have := bound p2
          simp only [rank] at he
          omega
      | interrupt p2 =>
          simp only [rank, Nat.add_left_cancel_iff] at he
          exact congrArg _ (UInt8.toNat_inj.mp he)

@[simp]
theorem Priority.rank_MIN : MIN.rank = 0 := rfl

@[simp]
theorem PriorityStatus.rank_invalid : invalid.rank = 0 := rfl

@[simp]
theorem PriorityStatus.rank_valid (priority : Priority)
    : (valid priority).rank = priority.rank + 1 := by
  cases priority <;> rfl

theorem Priority.rank_max (left right : Priority)
    : (left.max right).rank = Max.max left.rank right.rank := by
  have bound (level : UInt8) : level.toNat < 256 := level.toNat_lt
  cases left with
  | thread p1 =>
      cases right with
      | thread p2 => exact maxu8_toNat p1 p2
      | interrupt p2 =>
          have := bound p1
          simp only [Priority.max, rank]
          exact (Nat.max_eq_right (by omega)).symm
  | interrupt p1 =>
      cases right with
      | thread p2 =>
          have := bound p2
          simp only [Priority.max, rank]
          exact (Nat.max_eq_left (by omega)).symm
      | interrupt p2 =>
          simp only [Priority.max, rank, maxu8_toNat]
          exact Nat.add_max_add_left _ _ _ |>.symm

theorem PriorityStatus.eq_invalid_or_valid (status : PriorityStatus)
    : status = .invalid ∨ ∃ priority, status = valid priority := by
  cases status with
  | invalid => exact Or.inl rfl
  | thread level => exact Or.inr ⟨.thread level, rfl⟩
  | interrupt level => exact Or.inr ⟨.interrupt level, rfl⟩

theorem PriorityStatus.isValid_iff {status : PriorityStatus}
    : status.isValid = true ↔ 0 < status.rank := by
  cases status <;> simp [isValid, rank]

theorem PriorityStatus.max_valid (left right : Priority)
    : (valid left).max (valid right) = valid (left.max right) := by
  cases left <;> cases right <;> rfl

theorem PriorityStatus.rank_max (left right : PriorityStatus)
    : (left.max right).rank = Max.max left.rank right.rank := by
  rcases left.eq_invalid_or_valid with rfl | ⟨p1, rfl⟩
  · cases right <;> simp [max]
  · rcases right.eq_invalid_or_valid with rfl | ⟨p2, rfl⟩
    · cases p1 <;> simp [max, valid]
    · rw [max_valid, rank_valid, Priority.rank_max, rank_valid, rank_valid]
      exact Nat.add_max_add_right _ _ _ |>.symm

theorem PriorityStatus.rank_unwrapOrDefault (status : PriorityStatus)
    : (status.unwrapOrDefault Priority.MIN).rank = status.rank - 1 := by
  cases status <;> simp [unwrapOrDefault, rank, Priority.rank, Priority.MIN]

theorem PriorityStatus.ge_iff {left right : PriorityStatus} (leftValid : left.isValid = true)
    (rightValid : right.isValid = true)
    : left.ge right = true ↔ right.rank ≤ left.rank := by
  rcases left.eq_invalid_or_valid with rfl | ⟨p1, rfl⟩
  · simp [isValid] at leftValid
  rcases right.eq_invalid_or_valid with rfl | ⟨p2, rfl⟩
  · simp [isValid] at rightValid
  have compared : (valid p1).partialCmp (valid p2) = some (p1.cmp p2) := by
    cases p1 <;> cases p2 <;> rfl
  unfold ge
  rw [compared, Priority.cmp_rank, rank_valid, rank_valid]
  cases order : compare p1.rank p2.rank with
  | lt => simp [Nat.compare_eq_lt.mp order]
  | eq => simp [Nat.compare_eq_eq.mp order]
  | gt =>
      have := Nat.compare_eq_gt.mp order
      simp
      omega

theorem Priority.rank_maxValid (priority : Priority) (status : PriorityStatus)
    : (priority.maxValid status).rank + 1 = Max.max (priority.rank + 1) status.rank := by
  rcases status.eq_invalid_or_valid with rfl | ⟨other, rfl⟩
  · simp [maxValid, PriorityStatus.priority]
  · have reported : (PriorityStatus.valid other).priority = some other := by cases other <;> rfl
    simp only [maxValid, reported, Priority.rank_max, PriorityStatus.rank_valid]
    exact Nat.add_max_add_right _ _ _ |>.symm

end Scars
