import Scars.Kernel.FairSwitching

/-! Mutual exclusion of ceiling locks.
It holds in every run in which a reschedule that switches does so to a thread above the lock
ceiling, and in which the idle thread opens no section. The code guarantees neither.
-/

namespace Scars.Kernel

open Runs OrderedInsert

variable {kernel kernel' : Kernel} {thread : ThreadId}

/-- A thread that gives up a lock holds one, so it is not the idle thread. -/
theorem Separated.ne_idle (separated : kernel.Separated) (sound : kernel.LocksSound)
    {ceiling : Priority} (holds : kernel.Holds thread ceiling)
    : thread ≠ IDLE_THREAD_ID := by
  rintro rfl
  have positive := sound.rank_lt_lockKey holds
  have idle := separated.idle
  omega

/-- Holders stay separated where threads give way above the locks. -/
theorem Separated.perform (separated : kernel.Separated) (sound : kernel.Sound) {fuel : Nat}
    {op : Op} (respects : kernel.respectsLocks op = true)
    (hp : kernel.perform fuel op = .ok kernel')
    : kernel'.Separated := by
  by_cases changes : ChangesLocks op
  · cases op with
    | lock lock =>
        obtain ⟨notIdle, -, -, threads, -⟩ := lockScoped_ok hp
        exact separated.updateCurrent sound.consistent (adjusts_lockScoped hp).sameLists
          threads rfl notIdle
    | unlock lock =>
        rcases unlockScoped_ok hp with
          ⟨-, rfl⟩ | ⟨mine, released, rfl, he, threads, -⟩
        · exact separated
        · have notIdle := separated.ne_idle sound.locks (Or.inl ⟨lock, mine, rfl⟩)
          have updated := separated.updateCurrent sound.consistent he threads rfl notIdle
          exact updated.scheduling scheduling_condReschedule adjusts_condReschedule.sameLists.leaves
            (Or.inl adjusts_condReschedule.sameLists.current)
    | enterSection ceiling =>
        cases hp
        exact separated.updateCurrent sound.consistent (adjusts_enterSection ceiling).sameLists
          (enterSection_thread ceiling) rfl (by simpa [respectsLocks] using respects)
    | leaveSection =>
        obtain ⟨innermost, rest, released, opened, rfl, he, threads, -⟩ :=
          leaveSection_ok hp
        have holds : kernel.Holds kernel.currentThread innermost.ceiling :=
          Or.inr ⟨innermost, by simp [opened], rfl⟩
        have notIdle := separated.ne_idle sound.locks holds
        have updated := separated.updateCurrent sound.consistent he threads rfl notIdle
        exact updated.scheduling scheduling_condReschedule adjusts_condReschedule.sameLists.leaves
          (Or.inl adjusts_condReschedule.sameLists.current)
    | _ => exact changes.elim
  · refine separated.scheduling (scheduling_perform changes hp)
      (leaves_perform ?_ hp) (sound.perform_fair separated respects hp)
    rintro maybeThread rfl
    cases respects

theorem Reached.separated {fuel : Nat} {program : Program}
    (reached : Reached fuel program (fun before op => before.respectsLocks op = true) kernel)
    : kernel.Sound ∧ kernel.Separated := by
  refine reached.invariant (fun state => state.Sound ∧ state.Separated)
    ⟨start_sound program, start_separated program⟩ ?_
  intro before op after invariant respects hp
  exact ⟨invariant.1.perform hp,
    invariant.2.perform invariant.1 respects hp⟩

/-- Any thread but the current one holds locks below the current thread's priority only. -/
def Exclusive (kernel : Kernel) : Prop :=
  ∀ thread ceiling,
    thread ≠ kernel.currentThread
    → kernel.Holds thread ceiling
    → kernel.currentThread = IDLE_THREAD_ID
      ∨ ceiling < kernel.priority kernel.currentThread

theorem Separated.exclusive (separated : kernel.Separated) (sound : kernel.LocksSound)
    : kernel.Exclusive := by
  intro thread ceiling hne holds
  refine separated.current.imp id fun outranks => ?_
  have below := sound.rank_lt_lockKey holds
  have above := outranks thread hne
  have active := rank_priority kernel kernel.currentThread
  rw [Priority.lt_iff]
  omega

/-- An acquisition that passed the idle, recursion and ceiling checks finds the lock free,
since its owner would hold it above the current thread's priority.
-/
theorem Exclusive.lock_free (hx : kernel.Exclusive) (lock : LockId)
    : kernel.lockScoped lock ≠ .error .lockAlreadyOwned := by
  intro refused
  unfold lockScoped at refused
  dsimp only at refused
  split at refused
  · cases refused
  next notIdle =>
    split at refused
    · cases refused
    next notMine =>
      split at refused
      · cases refused
      next notAbove =>
        unfold acquireScopedLock at refused
        split at refused
        · split at refused
          next taken =>
            obtain ⟨owner, owned⟩ := Option.ne_none_iff_exists'.mp taken
            have hne : owner ≠ kernel.currentThread := by
              rintro rfl
              exact notMine owned
            have holds : kernel.Holds owner (kernel.lock lock).ceilingPriority :=
              Or.inl ⟨lock, owned, rfl⟩
            exact (hx owner _ hne holds).elim notIdle notAbove
          · cases refused
        · cases refused

/-- In every run whose calls respect the locks, ceiling locks exclude each other and an
acquisition never finds a lock owned by another thread.
-/
theorem mutualExclusion_runs {fuel : Nat} {program : Program}
    (reached : Reached fuel program (fun before op => before.respectsLocks op = true) kernel)
    : kernel.Exclusive
      ∧ ∀ lock, kernel.perform fuel (.lock lock) ≠ .error .lockAlreadyOwned := by
  obtain ⟨sound, separated⟩ := reached.separated
  have hx := separated.exclusive sound.locks
  exact ⟨hx, hx.lock_free⟩

/-- Thread 2 holds a lock of ceiling 5 and sleeps; thread 6 is above the ceiling, so a timer
tick may let it in, and thread 3 has to wait.
-/
theorem mutualExclusion_runs_tick
    : let program : Program :=
        ⟨fun thread => .thread (UInt8.ofNat thread), fun _ => .thread 5, fun _ => .interrupt 1⟩
      let ran := run (perform 1) (Kernel.start program)
        [.start 2, .executePendingReschedule 0, .lock 0, .delayUntil 9, .start 6, .start 3,
          .reschedule RESCHEDULE_KIND_YIELD_TO_HIGHER 1]
      ran.map (fun kernel => (kernel.currentThread, (kernel.lock 0).owner)) = .ok (6, some 2)
      ∧ ∀ kernel,
          ran = .ok kernel
          → kernel.Exclusive
            ∧ ∀ lock, kernel.perform 1 (.lock lock) ≠ .error .lockAlreadyOwned := by
  exact ⟨rfl, fun kernel ran => mutualExclusion_runs (Reaches.here.run_allowed _ rfl ran)⟩

/-- A timer tick lets thread 3 run while thread 2 sleeps with a lock of ceiling 5, and
thread 3 then finds the lock owned.
-/
theorem reschedule_ignores_ceiling
    : let program : Program :=
        ⟨fun thread => .thread (UInt8.ofNat thread), fun _ => .thread 5, fun _ => .interrupt 1⟩
      let ran := run (perform 1) (Kernel.start program)
        [.start 2, .executePendingReschedule 0, .lock 0, .delayUntil 9, .start 3,
          .reschedule RESCHEDULE_KIND_YIELD_TO_HIGHER 1]
      ran.map (fun kernel => kernel.currentThread) = .ok 3
      ∧ (∀ kernel, ran = .ok kernel → ¬ kernel.Exclusive)
      ∧ (do let kernel ← ran; kernel.perform 1 (.lock 0)) = .error .lockAlreadyOwned := by
  refine ⟨rfl, fun kernel ran hx => ?_, rfl⟩
  have current : kernel.currentThread = 3 := view_of_ok Kernel.currentThread ran rfl
  have lock : kernel.lock 0 = { ceilingPriority := .thread 5, owner := some 2 } :=
    view_of_ok (fun kernel : Kernel => kernel.lock 0) ran rfl
  have priority : kernel.priority 3 = .thread 3 :=
    view_of_ok (fun kernel : Kernel => kernel.priority 3) ran rfl
  have holds : kernel.Holds 2 (.thread 5) := Or.inl ⟨0, by rw [lock], by rw [lock]⟩
  have excluded := hx 2 (.thread 5) (by simp [current]) holds
  rw [current, priority] at excluded
  exact absurd excluded (by decide)

end Scars.Kernel
