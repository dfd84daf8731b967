import Scars.Kernel.ReadyArrivals

/-! The order of the ready queue in every run: by active priority, lock holders first among
equals, and the others in the order in which they became ready.
-/

namespace Scars

open Runs OrderedInsert Kernel

namespace Kernel

variable {kernel kernel' : Kernel} {thread : ThreadId} {arrived : List ThreadId}

/-- A lock operation makes nobody ready and changes the locks of the current thread only,
which is not queued.
-/
theorem InArrivalOrder.updateCurrent (inOrder : InArrivalOrder arrived kernel)
    (hc : kernel.Consistent) {raw : RawThread} (he : kernel.SameLists kernel')
    (threads : kernel'.thread = Function.update kernel.thread kernel.currentThread raw)
    : InArrivalOrder arrived kernel' := by
  refine inOrder.sublist (he.ready ▸ .refl _) fun thread hm => ?_
  have notCurrent : thread ≠ kernel.currentThread :=
    fun isCurrent => hc.current_unlisted.1 (isCurrent ▸ he.ready ▸ hm)
  rw [threads, Function.update_of_ne notCurrent]

theorem InArrivalOrder.condReschedule (inOrder : InArrivalOrder arrived kernel)
    : InArrivalOrder arrived kernel.condReschedule := by
  refine inOrder.sublist ?_ fun thread _ => congrFun scheduling_condReschedule.thread thread
  rw [adjusts_condReschedule.sameLists.ready]

theorem Sound.perform_inArrivalOrder (sound : kernel.Sound)
    (inOrder : InArrivalOrder arrived kernel) {fuel : Nat} {op : Op}
    (hp : kernel.perform fuel op = .ok kernel')
    : InArrivalOrder ((kernel.readied fuel op).foldl arrive arrived) kernel' := by
  have hc := sound.consistent
  by_cases changes : ChangesLocks op
  · cases op with
    | lock lock =>
        obtain ⟨-, -, -, threads, -⟩ := lockScoped_ok hp
        exact inOrder.updateCurrent hc (adjusts_lockScoped hp).sameLists threads
    | unlock lock =>
        rcases unlockScoped_ok hp with ⟨-, rfl⟩ | ⟨-, released, rfl, he, threads, -⟩
        · exact inOrder
        · exact (inOrder.updateCurrent hc he threads).condReschedule
    | enterSection ceiling =>
        cases hp
        exact inOrder.updateCurrent hc (adjusts_enterSection ceiling).sameLists
          (enterSection_thread ceiling)
    | leaveSection =>
        obtain ⟨innermost, rest, released, -, rfl, he, threads, -⟩ := leaveSection_ok hp
        exact (inOrder.updateCurrent hc he threads).condReschedule
    | _ => exact changes.elim
  · exact (hc.readies_perform changes hp).arrivals arrived sound.ordered inOrder

/-- A thread owns a scoped lock or is inside a section. -/
def holdsLock (kernel : Kernel) (thread : ThreadId) : Bool :=
  !((kernel.thread thread).scopedLocks.isEmpty && (kernel.thread thread).sections.isEmpty)

theorem HoldsSoundly.isValid_iff (sound : kernel.HoldsSoundly thread)
    : (kernel.lockPriority thread).isValid = kernel.holdsLock thread := by
  have nested := sound.nested
  have owned := sound.owned
  have rank := PriorityStatus.rank_max (kernel.thread thread).lockPriorities.1
    (kernel.thread thread).lockPriorities.2
  rw [Bool.eq_iff_iff, PriorityStatus.isValid_iff]
  simp only [lockPriority, RawThread.lockPriority, holdsLock, rank]
  cases locks : (kernel.thread thread).scopedLocks with
  | cons head rest =>
      rw [locks] at owned
      simp only [owned, ownedStatus, PriorityStatus.rank_valid, List.isEmpty_cons,
        Bool.false_and, Bool.not_false, iff_true]
      omega
  | nil =>
      rw [locks] at owned
      cases sections : (kernel.thread thread).sections with
      | cons innermost rest =>
          rw [sections] at nested
          have inside := (nested.le innermost (by simp)).1
          simp only [List.isEmpty_nil, List.isEmpty_cons, Bool.and_false, Bool.not_false, iff_true]
          omega
      | nil =>
          rw [sections] at nested
          have outside : (kernel.thread thread).lockPriorities.1 = .invalid := nested
          simp [owned, ownedStatus, outside]

end Kernel

/-- In every run the ready queue is sorted by active priority, lock holders precede the
others of their priority, and those stand in the order in which they became ready.
-/
theorem readyQueue_order_runs {fuel : Nat} {program : Program} {logged : Logged}
    (reached
      : Reaches (Logged.perform fuel) (fun _ _ => True) ⟨start program, []⟩ logged)
    : let kernel := logged.kernel
      kernel.readyQueue.Pairwise (fun first second =>
        kernel.priority second ≤ kernel.priority first
        ∧ (kernel.priority first = kernel.priority second
          → kernel.holdsLock second = true
          → kernel.holdsLock first = true))
      ∧ ∀ priority,
          (kernel.readyQueue.filter fun thread =>
            !kernel.holdsLock thread && decide (kernel.priority thread = priority)).Sublist
              logged.arrived := by
  have invariant
      : logged.kernel.Sound ∧ Kernel.InArrivalOrder logged.arrived logged.kernel := by
    apply reached.invariant fun state : Logged =>
      state.kernel.Sound ∧ Kernel.InArrivalOrder state.arrived state.kernel
    · exact ⟨start_sound program, fun _ => .refl _⟩
    · rintro ⟨before, arrived⟩ op after ⟨sound, inOrder⟩ - hp
      simp only [Logged.perform] at hp
      cases outcome : before.perform fuel op with
      | error fault => simp [outcome, Except.map] at hp
      | ok kernel =>
          rw [outcome] at hp
          cases hp
          exact ⟨sound.perform outcome, sound.perform_inArrivalOrder inOrder outcome⟩
  obtain ⟨sound, inOrder⟩ := invariant
  have holders (thread : ThreadId) := (sound.locks thread).isValid_iff
  refine ⟨?_, fun priority => ?_⟩
  · refine List.Pairwise.imp ?_ sound.ordered.ready
    intro first second keys
    simp only [readyKey, holders] at keys
    have atMostOne := Bool.toNat_le (logged.kernel.holdsLock first)
    refine ⟨Priority.le_iff.mpr (by omega), fun equal holds => ?_⟩
    rw [equal, holds, Bool.toNat_true] at keys
    cases heldFirst : logged.kernel.holdsLock first with
    | true => rfl
    | false =>
        rw [heldFirst, Bool.toNat_false] at keys
        omega
  · have alike : logged.kernel.isUnlocked priority = fun thread =>
        !logged.kernel.holdsLock thread
          && decide (logged.kernel.priority thread = priority) := by
      funext thread
      rw [isUnlocked, holders]
    rw [← alike]
    exact inOrder priority

/-- Thread 2 is preempted by thread 4 while it holds a lock. It became ready after thread 3
and still stands in front of it.
-/
theorem readyQueue_order_runs_holder
    : let program : Program :=
        ⟨fun thread => if thread = 4 then .thread 9 else .thread 5, fun _ => .thread 5,
          fun _ => .interrupt 1⟩
      let ran := run (Logged.perform 1) ⟨start program, []⟩
        [.start 2, .executePendingReschedule 0, .lock 0, .start 3, .start 4,
          .executePendingReschedule 1]
      ran.map (fun logged => (logged.kernel.readyQueue, logged.arrived)) = .ok ([2, 3], [3, 4, 2])
      ∧ ∀ logged,
          ran = .ok logged
          → (logged.kernel.readyQueue.filter fun thread =>
              !logged.kernel.holdsLock thread
                && decide (logged.kernel.priority thread = .thread 5)).Sublist
                  logged.arrived := by
  refine ⟨rfl, fun logged ran => ?_⟩
  have ordered := readyQueue_order_runs (Reaches.here.run (fun _ _ _ => trivial) ran)
  exact ordered.2 (.thread 5)

end Scars
