import Scars.Kernel.PriorityOrder

/-! The lock ceiling that the head of the blocked list gives is the highest lock held.
The insertion files an invalid lock priority behind all holders of locks, so the head tells whether
any blocked thread holds one.
-/

namespace Scars

open Runs OrderedInsert PriorityStatus

namespace PriorityStatus

theorem rank_injective {left right : PriorityStatus} (he : left.rank = right.rank)
    : left = right := by
  have bound (level : UInt8) : level.toNat < 256 := level.toNat_lt
  cases left with
  | invalid =>
      cases right with
      | invalid => rfl
      | thread second => simp [rank] at he
      | interrupt second => simp [rank] at he
  | thread first =>
      have := bound first
      cases right with
      | invalid => simp [rank] at he
      | thread second =>
          simp only [rank] at he
          exact congrArg _ (UInt8.toNat_inj.mp (by omega))
      | interrupt second =>
          simp only [rank] at he
          omega
  | interrupt first =>
      cases right with
      | invalid => simp [rank] at he
      | thread second =>
          have := bound second
          simp only [rank] at he
          omega
      | interrupt second =>
          simp only [rank] at he
          exact congrArg _ (UInt8.toNat_inj.mp (by omega))

/-- The maximum of the statuses, with an invalid one below everything. -/
def maximum (statuses : List PriorityStatus) : PriorityStatus := statuses.foldr max .invalid

variable {statuses : List PriorityStatus}

theorem rank_le_maximum {status : PriorityStatus} (hm : status ∈ statuses)
    : status.rank ≤ (maximum statuses).rank := by
  induction statuses with
  | nil => cases hm
  | cons first rest ih =>
      have highest := rank_max first (maximum rest)
      change status.rank ≤ (first.max (maximum rest)).rank
      rcases List.mem_cons.mp hm with rfl | later
      · omega
      · have := ih later
        omega

theorem maximum_mem
    : maximum statuses = .invalid ∨ maximum statuses ∈ statuses := by
  induction statuses with
  | nil => exact Or.inl rfl
  | cons first rest ih =>
      have highest := rank_max first (maximum rest)
      change first.max (maximum rest) = .invalid ∨ first.max (maximum rest) ∈ first :: rest
      rcases Nat.le_total (maximum rest).rank first.rank with below | above
      · have he : first.max (maximum rest) = first := rank_injective (by omega)
        exact Or.inr (by simp [he])
      · have he : first.max (maximum rest) = maximum rest := rank_injective (by omega)
        rw [he]
        exact ih.imp_right (List.mem_cons_of_mem first)

end PriorityStatus

namespace Kernel

variable {kernel : Kernel} {fuel : Nat} {program : Program}

/-- The head of a sorted blocked list gives the maximum. Witness: the ceiling bounds the lock
priority of each thread, and is one of them.
-/
theorem Ordered.locksPriorityCeiling_eq (ordered : kernel.Ordered)
    : kernel.locksPriorityCeiling
      = .maximum ((kernel.currentThread :: kernel.blockedList).map kernel.lockPriority) := by
  refine rank_injective (Nat.le_antisymm ?_ ?_)
  · refine ceilingRank_le ?_ fun thread hm => ?_
    · exact rank_le_maximum (by simp)
    · exact rank_le_maximum (List.mem_map_of_mem (by simp [hm]))
  · rcases maximum_mem with invalid | hm
    · rw [invalid]
      exact Nat.zero_le _
    · obtain ⟨thread, listed, he⟩ := List.mem_map.mp hm
      rw [← he]
      exact ordered.lockKey_le_ceiling (by simpa using listed)

/-- The blocked threads that hold locks come first, in descending order of their lock
priorities.
-/
theorem Ordered.holders_first (ordered : kernel.Ordered)
    : kernel.blockedList.Pairwise fun first second =>
        (kernel.lockPriority second).isValid = true
        → (kernel.lockPriority first).isValid = true
          ∧ (kernel.lockPriority first).ge (kernel.lockPriority second) = true := by
  refine List.Pairwise.imp ?_ ordered.blocked
  intro first second below held
  have valid : (kernel.lockPriority first).isValid = true :=
    isValid_iff.mpr (Nat.lt_of_lt_of_le (isValid_iff.mp held) below)
  exact ⟨valid, (ge_iff valid held).mpr below⟩

/-- In every kernel that any operations lead to, `locks_priority_ceiling` is the maximum of the
lock priorities of the current and all blocked threads, and the blocked list has the holders of
locks first, in descending order.
-/
theorem locksPriorityCeiling_is_maximum (reached : Reached fuel program (fun _ _ => True) kernel)
    : kernel.locksPriorityCeiling
        = .maximum ((kernel.currentThread :: kernel.blockedList).map kernel.lockPriority)
      ∧ kernel.blockedList.Pairwise fun first second =>
          (kernel.lockPriority second).isValid = true
          → (kernel.lockPriority first).isValid = true
            ∧ (kernel.lockPriority first).ge (kernel.lockPriority second) = true := by
  have ordered := (Reached.sound reached).ordered
  exact ⟨ordered.locksPriorityCeiling_eq, ordered.holders_first⟩

/-- Thread 2 is blocked with a lock of ceiling 2, and then thread 3 without one: thread 2 stays
first in the blocked list, and the ceiling is that of its lock.
-/
theorem locksPriorityCeiling_is_maximum_blocked
    : let program : Program :=
        ⟨fun thread => .thread thread.toUInt8, fun _ => .thread 2, fun _ => .interrupt 1⟩
      let ran := run (perform 1) (Kernel.start program)
        [.start 2, .executePendingReschedule 0, .lock 0, .delayUntil 9, .start 3,
          .executePendingReschedule 0, .delayUntil 10]
      ran.map (fun kernel => (kernel.blockedList, kernel.locksPriorityCeiling))
        = .ok ([2, 3], .thread 2)
      ∧ ∀ kernel,
          ran = .ok kernel
          → kernel.locksPriorityCeiling
            = .maximum ((kernel.currentThread :: kernel.blockedList).map kernel.lockPriority) :=
  ⟨rfl, fun _ ran =>
    (locksPriorityCeiling_is_maximum (Reaches.here.run (fun _ _ _ => trivial) ran)).1⟩

end Kernel

end Scars
