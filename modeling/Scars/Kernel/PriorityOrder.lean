import Scars.Kernel.Invariants

/-! The most urgent thread runs.
Between operations no ready thread is more urgent than the current thread and the lock
ceiling, provided each pending reschedule is executed before the next operation.
-/

namespace Scars.Kernel

open Runs OrderedInsert

/-- No ready thread has an active priority above the maximum of the current thread's and
the lock ceiling.
-/
def NoInversion (kernel : Kernel) : Prop :=
  ∀ thread ∈ kernel.readyQueue,
    ¬ (kernel.priority kernel.currentThread).maxValid kernel.locksPriorityCeiling
        < kernel.priority thread

variable {kernel kernel' : Kernel} {thread : ThreadId}

/-- The rank of the lock ceiling, zero when neither the current nor a blocked thread holds
a lock.
-/
def ceilingRank (kernel : Kernel) : Nat := kernel.locksPriorityCeiling.rank

theorem noInversion_iff
    : kernel.NoInversion
      ↔ ∀ thread ∈ kernel.readyQueue,
          (kernel.priority thread).rank ≤ (kernel.priority kernel.currentThread).rank
          ∨ (kernel.priority thread).rank < kernel.ceilingRank := by
  have allowance := Priority.rank_maxValid (kernel.priority kernel.currentThread)
    kernel.locksPriorityCeiling
  unfold NoInversion ceilingRank
  refine forall₂_congr fun thread _ => ?_
  rw [Priority.lt_iff]
  omega

/-- The lock ceiling covers the current thread's locks and those of every blocked thread,
since the head of the blocked list holds the highest.
-/
theorem Ordered.lockKey_le_ceiling (ordered : kernel.Ordered)
    (listed : thread = kernel.currentThread ∨ thread ∈ kernel.blockedList)
    : kernel.lockKey thread ≤ kernel.ceilingRank := by
  unfold ceilingRank locksPriorityCeiling
  have blocked := ordered.blocked
  split
  next empty =>
    rcases listed with rfl | hm
    · exact Nat.le_refl _
    · simp [empty] at hm
  next head rest hq =>
    rw [hq] at blocked listed
    have raised := PriorityStatus.rank_max (kernel.lockPriority head)
      (kernel.lockPriority kernel.currentThread)
    simp only [lockKey]
    rcases listed with rfl | hm
    · omega
    · have below := blocked.le_head thread hm
      simp only [lockKey] at below
      omega

theorem ceilingRank_le {bound : Nat} (current : kernel.lockKey kernel.currentThread ≤ bound)
    (blocked : ∀ thread ∈ kernel.blockedList, kernel.lockKey thread ≤ bound)
    : kernel.ceilingRank ≤ bound := by
  unfold ceilingRank locksPriorityCeiling
  split
  next => exact current
  next head rest hq =>
    have first := blocked head (by simp [hq])
    have raised := PriorityStatus.rank_max (kernel.lockPriority head)
      (kernel.lockPriority kernel.currentThread)
    simp only [lockKey] at current first
    omega

theorem lockKey_le_priority (kernel : Kernel) (thread : ThreadId)
    : kernel.lockKey thread ≤ (kernel.priority thread).rank + 1 := by
  have active := Priority.rank_maxValid (kernel.thread thread).basePriority
    (kernel.thread thread).lockPriority
  simp only [lockKey, Kernel.lockPriority, Kernel.priority, RawThread.priority]
  omega

theorem Ordered.rank_le_head (ordered : kernel.Ordered) {head : ThreadId}
    {rest : List ThreadId} (hq : kernel.readyQueue = head :: rest)
    : ∀ thread ∈ kernel.readyQueue,
        (kernel.priority thread).rank ≤ (kernel.priority head).rank := by
  have ready := ordered.ready
  rw [hq] at ready
  intro thread hm
  have below := ready.le_head thread (hq ▸ hm)
  have := Bool.toNat_le (kernel.lockPriority head).isValid
  simp only [readyKey] at below
  omega

theorem Ordered.rank_le_of_head (ordered : kernel.Ordered) {bound : Nat}
    (first : ∀ head ∈ kernel.readyQueue.head?, (kernel.priority head).rank ≤ bound)
    : ∀ thread ∈ kernel.readyQueue, (kernel.priority thread).rank ≤ bound := by
  cases hq : kernel.readyQueue with
  | nil => simp
  | cons head rest =>
      intro thread hm
      have below := ordered.rank_le_head hq thread (hq ▸ hm)
      have := first head (by simp [hq])
      omega

/-- Filing a thread as ready adds it to the ready queue and touches no other list, lock or
the current thread.
-/
theorem insertToReadyQueue_frame (hi : kernel.insertToReadyQueue thread = .ok kernel')
    : kernel'.thread = kernel.thread ∧ kernel'.currentThread = kernel.currentThread
      ∧ kernel'.blockedList = kernel.blockedList
      ∧ ∀ other ∈ kernel'.readyQueue, other = thread ∨ other ∈ kernel.readyQueue := by
  rcases insertToReadyQueue_ok hi with ⟨-, rfl⟩ | ⟨-, -, rfl⟩
  · exact ⟨rfl, rfl, rfl, fun _ hm => Or.inr hm⟩
  · exact ⟨rfl, rfl, rfl, fun _ hm => mem_insertPast.mp hm⟩

theorem Sound.switchToNext_highest (sound : kernel.Sound) {kind : Nat}
    (switched : kernel.switchToNext kind = .ok kernel')
    : ∀ thread ∈ kernel'.readyQueue,
        (kernel'.priority thread).rank ≤ (kernel'.priority kernel'.currentThread).rank := by
  rcases switchToNext_ok switched with
    ⟨refused, rfl⟩ | ⟨head, rest, hq, accepted, ⟨-, hi⟩ | ⟨he, -⟩⟩
  · refine sound.ordered.rank_le_of_head fun head first => ?_
    have notAbove := refused head first
    unfold mayReplaceCurrent at notAbove
    dsimp only at notAbove
    split at notAbove
    · have := mt Priority.le_iff.mpr (of_decide_eq_false notAbove)
      omega
    · have := mt Priority.lt_iff.mpr (of_decide_eq_false notAbove)
      omega
  · have atLeast : (kernel.priority kernel.currentThread).rank ≤ (kernel.priority head).rank := by
      unfold mayReplaceCurrent at accepted
      dsimp only at accepted
      split at accepted
      · exact Priority.le_iff.mp (of_decide_eq_true accepted)
      · exact Nat.le_of_lt (Priority.lt_iff.mp (of_decide_eq_true accepted))
    obtain ⟨threads, current, -, members⟩ := insertToReadyQueue_frame hi
    have priorities : kernel'.priority = kernel.priority := by
      funext other
      simp only [Kernel.priority, threads]
      rfl
    rw [priorities, current]
    intro thread hm
    rcases members thread hm with rfl | later
    · exact atLeast
    · refine sound.ordered.rank_le_head hq thread ?_
      rw [hq]
      exact List.mem_cons_of_mem head later
  · obtain ⟨notReady, -⟩ := sound.consistent.current_unlisted
    exact absurd (by simp [hq, he]) notReady

theorem Sound.reschedule_highest (sound : kernel.Sound) {fuel kind : Nat} {now : Instant}
    (rescheduled : kernel.reschedule fuel kind now = .ok kernel')
    : ∀ thread ∈ kernel'.readyQueue,
        (kernel'.priority thread).rank ≤ (kernel'.priority kernel'.currentThread).rank := by
  obtain ⟨awake, woken, switched⟩ := bind_ok.mp rescheduled
  have awakeSound : awake.Sound :=
    sound.scheduling (scheduling_wakeDue woken) (sound.consistent.wakeDue woken)
  exact awakeSound.switchToNext_highest switched

theorem noInversion_of_highest
    (highest
      : ∀ thread ∈ kernel.readyQueue,
          (kernel.priority thread).rank ≤ (kernel.priority kernel.currentThread).rank)
    : kernel.NoInversion :=
  noInversion_iff.mpr fun thread hm => Or.inl (highest thread hm)

end Scars.Kernel
