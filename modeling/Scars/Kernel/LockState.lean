import Scars.Kernel.LockEffects

/-! The locks a thread holds and the priorities it keeps for them.
The pair of lock priorities reports what is held: the open sections first, the scoped locks second.
-/

namespace Scars.Kernel

open Runs OrderedInsert Function

variable {kernel kernel' : Kernel} {thread : ThreadId}

/-- The nesting priority of a thread inside these sections, innermost first: each section
raised the one it saved to its own ceiling and at least to the base priority.
-/
def Nested (base : Priority) : List CeilingSection → PriorityStatus → Prop
  | [], status => status = .invalid
  | innermost :: rest, status =>
      Nested base rest innermost.savedPriority
      ∧ status = innermost.savedPriority.max (.valid (innermost.ceiling.max base))

/-- The lock priorities of one thread agree with its sections and scoped locks, and it owns
exactly the scoped locks it lists.
-/
structure HoldsSoundly (kernel : Kernel) (thread : ThreadId) : Prop where
  nested
    : Nested (kernel.thread thread).basePriority (kernel.thread thread).sections
        (kernel.thread thread).lockPriorities.1
  owned
    : (kernel.thread thread).lockPriorities.2
      = kernel.ownedStatus (kernel.thread thread).scopedLocks
  descending : Descending kernel.ceilingKey (kernel.thread thread).scopedLocks
  unrepeated : (kernel.thread thread).scopedLocks.Nodup
  owner
    : ∀ lock,
        (kernel.lock lock).owner = some thread ↔ lock ∈ (kernel.thread thread).scopedLocks
  above
    : ∀ lock ∈ (kernel.thread thread).scopedLocks,
        (kernel.thread thread).basePriority.rank ≤ kernel.ceilingKey lock

/-- Every section's ceiling and, inside any section, the base priority are at most the
nesting priority. Witness: induction on the sections; an outer section is below the
priority its inner neighbour saved.
-/
theorem Nested.le {base : Priority} {sections : List CeilingSection} {status : PriorityStatus}
    (nested : Nested base sections status)
    : ∀ opened ∈ sections,
        opened.ceiling.rank + 1 ≤ status.rank ∧ base.rank + 1 ≤ status.rank := by
  induction sections generalizing status with
  | nil => simp
  | cons innermost rest ih =>
      obtain ⟨saved, rfl⟩ := nested
      have raised := PriorityStatus.rank_max innermost.savedPriority
        (.valid (innermost.ceiling.max base))
      rw [PriorityStatus.rank_valid, Priority.rank_max] at raised
      intro opened hm
      rcases List.mem_cons.mp hm with rfl | outer
      · omega
      · have below := ih saved opened outer
        omega

/-- Every thread's lock priorities agree with what it holds. -/
def LocksSound (kernel : Kernel) : Prop := ∀ thread, kernel.HoldsSoundly thread

theorem start_locksSound (program : Program) : (Kernel.start program).LocksSound := by
  intro thread
  constructor <;> simp [Kernel.start, Nested, ownedStatus, Descending]

theorem ownedStatus_congr
    (ceilings
      : ∀ lock, (kernel'.lock lock).ceilingPriority = (kernel.lock lock).ceilingPriority)
    (locks : List LockId)
    : kernel'.ownedStatus locks = kernel.ownedStatus locks := by
  cases locks with
  | nil => rfl
  | cons head rest => simp only [ownedStatus, ceilings]

theorem ceilingKey_congr
    (ceilings
      : ∀ lock, (kernel'.lock lock).ceilingPriority = (kernel.lock lock).ceilingPriority)
    : kernel'.ceilingKey = kernel.ceilingKey := by
  funext lock
  simp only [ceilingKey, ceilings]

/-- A thread whose record is untouched holds what it held, if it still owns the same
locks.
-/
theorem HoldsSoundly.congr (sound : kernel.HoldsSoundly thread)
    (he : kernel'.thread thread = kernel.thread thread)
    (ceilings
      : ∀ lock, (kernel'.lock lock).ceilingPriority = (kernel.lock lock).ceilingPriority)
    (owner
      : ∀ lock,
          (kernel'.lock lock).owner = some thread ↔ (kernel.lock lock).owner = some thread)
    : kernel'.HoldsSoundly thread where
  nested := by rw [he]; exact sound.nested
  owned := by rw [he, ownedStatus_congr ceilings]; exact sound.owned
  descending := by rw [he, ceilingKey_congr ceilings]; exact sound.descending
  unrepeated := by rw [he]; exact sound.unrepeated
  owner lock := by rw [he, owner, sound.owner]
  above := by rw [he, ceilingKey_congr ceilings]; exact sound.above

theorem LocksSound.scheduling (sound : kernel.LocksSound) (scheduling : kernel.Scheduling kernel')
    : kernel'.LocksSound :=
  fun thread => (sound thread).congr (by rw [scheduling.thread])
    (fun _ => by rw [scheduling.lock]) (fun _ => by rw [scheduling.lock])

/-- A lock operation of the current thread rewrites its own record only. The others keep
theirs as long as the locks they own stay the same.
-/
theorem LocksSound.update (sound : kernel.LocksSound) {raw : RawThread}
    (rewritten
      : kernel'.thread = update kernel.thread kernel.currentThread raw)
    (ceilings
      : ∀ lock, (kernel'.lock lock).ceilingPriority = (kernel.lock lock).ceilingPriority)
    (owner
      : ∀ thread lock,
          thread ≠ kernel.currentThread
          → ((kernel'.lock lock).owner = some thread
            ↔ (kernel.lock lock).owner = some thread))
    (current : kernel'.HoldsSoundly kernel.currentThread)
    : kernel'.LocksSound := by
  intro thread
  by_cases he : thread = kernel.currentThread
  · exact he ▸ current
  · exact (sound thread).congr (by rw [rewritten, update_of_ne he]) ceilings
      fun lock => owner thread lock he

theorem basePriority_le_priority (kernel : Kernel) (thread : ThreadId)
    : (kernel.thread thread).basePriority.rank ≤ (kernel.priority thread).rank := by
  have bound := Nat.le_max_left ((kernel.thread thread).basePriority.rank + 1)
    (kernel.thread thread).lockPriority.rank
  rw [← Priority.rank_maxValid] at bound
  exact Nat.le_of_succ_le_succ bound

section

variable (sound : kernel.LocksSound)
include sound

/-- Acquiring a lock files it under its ceiling. Witness: the ceiling check puts the base
priority below the ceiling, and a free lock is in no list.
-/
theorem LocksSound.lockScoped {lock : LockId} (locked : kernel.lockScoped lock = .ok kernel')
    : kernel'.LocksSound := by
  obtain ⟨-, free, notAbove, threads, locks⟩ := lockScoped_ok locked
  have ceilings (other : LockId)
      : (kernel'.lock other).ceilingPriority = (kernel.lock other).ceilingPriority := by
    rw [locks, ceilingPriority_update]
  have unowned (thread : ThreadId) : lock ∉ (kernel.thread thread).scopedLocks := by
    rw [← (sound thread).owner, free]
    simp
  refine sound.update threads ceilings ?_ ?_
  · intro thread other hne
    rw [locks]
    by_cases he : other = lock
    · subst he
      simp [free, hne.symm]
    · rw [update_of_ne he]
  · have current := sound kernel.currentThread
    have record : kernel'.thread kernel.currentThread
        = kernel.withScopedLocks (kernel.acquiredLocks lock) := by
      rw [threads, update_self]
    constructor
    case nested => rw [record]; exact current.nested
    case owned => rw [record, ownedStatus_congr ceilings]; rfl
    case descending =>
      rw [record, ceilingKey_congr ceilings]
      refine current.descending.insertPast ?_ ?_
      · intro other passes
        exact Nat.le_of_lt (Priority.lt_iff.mp (of_decide_eq_true passes))
      · intro other stops
        exact Nat.le_of_not_lt (mt Priority.lt_iff.mpr (of_decide_eq_false stops))
    case unrepeated =>
      rw [record]
      exact nodup_insertPast (unowned _) current.unrepeated
    case owner =>
      intro other
      rw [record, locks]
      simp only [withScopedLocks, acquiredLocks, mem_insertPast, ← current.owner]
      by_cases he : other = lock
      · subst he; simp
      · simp [he]
    case above =>
      rw [record, ceilingKey_congr ceilings]
      intro other hm
      rcases mem_insertPast.mp hm with rfl | held
      · have checked := mt Priority.lt_iff.mpr notAbove
        have base := basePriority_le_priority kernel kernel.currentThread
        simp only [withScopedLocks, ceilingKey]
        omega
      · exact current.above other held

theorem LocksSound.unlockScoped {lock : LockId} (unlocked : kernel.unlockScoped lock = .ok kernel')
    : kernel'.LocksSound := by
  rcases unlockScoped_ok unlocked with ⟨-, rfl⟩ | ⟨mine, released, rfl, -, threads, locks⟩
  · exact sound
  refine LocksSound.scheduling ?_ scheduling_condReschedule
  have ceilings (other : LockId)
      : (released.lock other).ceilingPriority = (kernel.lock other).ceilingPriority := by
    rw [locks, ceilingPriority_update]
  refine sound.update threads ceilings ?_ ?_
  · intro thread other hne
    rw [locks]
    by_cases he : other = lock
    · subst he
      simp [mine, hne.symm]
    · rw [update_of_ne he]
  · have current := sound kernel.currentThread
    have record : released.thread kernel.currentThread
        = kernel.withScopedLocks
          ((kernel.thread kernel.currentThread).scopedLocks.erase lock) := by
      rw [threads, update_self]
    constructor
    case nested => rw [record]; exact current.nested
    case owned => rw [record, ownedStatus_congr ceilings]; rfl
    case descending =>
      rw [record, ceilingKey_congr ceilings]
      exact current.descending.sublist List.erase_sublist
    case unrepeated => rw [record]; exact current.unrepeated.erase lock
    case owner =>
      intro other
      rw [record, locks]
      simp only [withScopedLocks, current.unrepeated.mem_erase_iff, ← current.owner]
      by_cases he : other = lock
      · subst he; simp
      · simp [he]
    case above =>
      rw [record, ceilingKey_congr ceilings]
      exact fun other hm => current.above other (List.mem_of_mem_erase hm)

theorem LocksSound.enterSection (ceiling : Priority)
    : (kernel.enterSection ceiling).LocksSound := by
  have locks : (kernel.enterSection ceiling).lock = kernel.lock := enterSection_lock ceiling
  have ceilings (other : LockId)
      : ((kernel.enterSection ceiling).lock other).ceilingPriority
        = (kernel.lock other).ceilingPriority := by rw [locks]
  refine sound.update (enterSection_thread ceiling) ceilings (fun _ _ _ => by rw [locks]) ?_
  have current := sound kernel.currentThread
  have record : (kernel.enterSection ceiling).thread kernel.currentThread
      = kernel.withSection ceiling := by
    rw [enterSection_thread, update_self]
  constructor
  case nested => rw [record]; exact ⟨current.nested, rfl⟩
  case owned => rw [record, ownedStatus_congr ceilings]; exact current.owned
  case descending =>
    rw [record, ceilingKey_congr ceilings]
    exact current.descending
  case unrepeated => rw [record]; exact current.unrepeated
  case owner => rw [record, locks]; exact current.owner
  case above =>
    rw [record, ceilingKey_congr ceilings]
    exact current.above

theorem LocksSound.leaveSection (left : kernel.leaveSection = .ok kernel')
    : kernel'.LocksSound := by
  obtain ⟨innermost, rest, released, opened, rfl, -, threads, locks⟩ := leaveSection_ok left
  refine LocksSound.scheduling ?_ scheduling_condReschedule
  have ceilings (other : LockId)
      : (released.lock other).ceilingPriority = (kernel.lock other).ceilingPriority := by
    rw [locks]
  refine sound.update threads ceilings (fun _ _ _ => by rw [locks]) ?_
  have current := sound kernel.currentThread
  have nested := current.nested
  rw [opened] at nested
  have record : released.thread kernel.currentThread
      = kernel.withoutSection innermost rest := by
    rw [threads, update_self]
  constructor
  case nested => rw [record]; exact nested.1
  case owned => rw [record, ownedStatus_congr ceilings]; exact current.owned
  case descending =>
    rw [record, ceilingKey_congr ceilings]
    exact current.descending
  case unrepeated => rw [record]; exact current.unrepeated
  case owner => rw [record, locks]; exact current.owner
  case above =>
    rw [record, ceilingKey_congr ceilings]
    exact current.above

end

end Scars.Kernel
