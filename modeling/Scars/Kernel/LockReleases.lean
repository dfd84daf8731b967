import Scars.Kernel.HandlerLockSteps

/-! Releasing scoped locks more than once.
A thread asks for the owner first and returns when there is none. A handler unlinks the lock from
its list right away, which faults when it is not there.
-/

namespace Scars.Locking

open Runs OrderedInsert Locking

variable {locking locking' : Locking} {fuel : Nat} {context : ExecutionContext} {lock : LockId}
  {handler : HandlerId} {thread : ThreadId}

/-- `RawCeilingLock::release_scoped_lock`, by an unlock call or by the drop of a guard. -/
def releaseScopedLock (context : ExecutionContext) (lock : LockId) : Event :=
  match context with
  | .thread _ => .kernel (.unlock lock)
  | .interrupt handler => .handler handler (.unlock lock)

/-- The active priority is the one implied by what the context still holds. -/
def PriorityImplied (locking : Locking) (context : ExecutionContext) : Prop :=
  let account := locking.account context
  locking.priority context
    = .highest account.base
        (account.locks.map locking.ceilingOf ++ account.sections.map CeilingSection.ceiling)

/-- One lock left the list of its holder and has no owner; the other locks stayed. -/
structure Released (context : ExecutionContext) (lock : LockId) (locking locking' : Locking)
    : Prop where
  owner : (locking'.lock lock).owner = none
  removed : lock ∉ (locking'.account context).locks
  others
    : ∀ other,
        other ≠ lock
        → (other ∈ (locking'.account context).locks ↔ other ∈ (locking.account context).locks)

/-- A sequence of releases behaves as it should: each returns, the first release of a lock
gives it up, a further one changes nothing, and the priority follows.
-/
def ReleasesCleanly (fuel : Nat) (context : ExecutionContext)
    : List LockId → Locking → List LockId → Prop
  | _, _, [] => True
  | released, locking, lock :: rest =>
      ∃ next,
        locking.perform fuel (releaseScopedLock context lock) = .ok next
        ∧ (lock ∈ released → next = locking)
        ∧ (lock ∉ released → Released context lock locking next)
        ∧ next.PriorityImplied context
        ∧ ReleasesCleanly fuel context (lock :: released) next rest

theorem Sound.priorityImplied (sound : locking.Sound) (context : ExecutionContext)
    : locking.PriorityImplied context :=
  sound.priority_eq context

theorem lockOp_release (executes : locking.Executes context)
    : locking.lockOp (releaseScopedLock context lock) context = some (.unlock lock) := by
  cases context with
  | thread thread => exact if_pos executes
  | interrupt handler => exact if_pos rfl

/-- A release takes the lock, if it is held, off the list and leaves the others there. -/
theorem Sound.locks_release (sound : locking.Sound) (executes : locking.Executes context)
    (hp : locking.perform fuel (releaseScopedLock context lock) = .ok locking')
    : (locking'.account context).locks = (locking.account context).locks.erase lock := by
  have follows := sound.follows hp context
  rw [lockOp_release executes] at follows
  rw [follows.2]
  rfl

theorem Sound.released (sound : locking.Sound) (executes : locking.Executes context)
    (hp : locking.perform fuel (releaseScopedLock context lock) = .ok locking')
    (owner : (locking'.lock lock).owner = none)
    : Released context lock locking locking' := by
  have locks := sound.locks_release executes hp
  have unique := (sound.account context).unrepeated
  refine ⟨owner, ?_, fun other hne => ?_⟩
  · rw [locks]
    exact unique.not_mem_erase
  · rw [locks, List.mem_erase_of_ne hne]

theorem unlockScoped_returns {kernel : Kernel}
    (owned : (kernel.lock lock).owner = some kernel.currentThread)
    (listed : lock ∈ (kernel.thread kernel.currentThread).scopedLocks)
    : ∃ kernel', kernel.unlockScoped lock = .ok kernel'
        ∧ (kernel'.lock lock).owner = none ∧ kernel'.currentThread = kernel.currentThread := by
  have returns : ∃ kernel', kernel.unlockScoped lock = .ok kernel' := by
    unfold Kernel.unlockScoped Kernel.releaseScopedLock
    simp [owned, listed]
  obtain ⟨kernel', unlocked⟩ := returns
  refine ⟨kernel', unlocked, ?_, (Kernel.adjusts_unlockScoped unlocked).currentThread⟩
  rcases Kernel.unlockScoped_ok unlocked with ⟨free, -⟩ | ⟨-, released, rfl, -, -, locks⟩
  · simp [free] at owned
  · rw [Kernel.scheduling_condReschedule.lock, locks, Function.update_self]

theorem Sound.release_held (sound : locking.Sound) (executes : locking.Executes context)
    (held : lock ∈ (locking.account context).locks) (fuel : Nat)
    : ∃ next, locking.perform fuel (releaseScopedLock context lock) = .ok next
        ∧ Released context lock locking next ∧ next.Executes context := by
  cases context with
  | thread thread =>
      have current : thread = locking.currentThread := executes
      subst current
      obtain ⟨kernel, unlocked, owner, he⟩ := unlockScoped_returns
        (((sound.threads locking.currentThread).owner lock).mpr held) held
      have hp
          : locking.perform fuel (releaseScopedLock (.thread locking.currentThread) lock)
            = .ok { locking with toKernel := kernel } :=
        bind_ok.mpr ⟨kernel, unlocked, rfl⟩
      exact ⟨_, hp, sound.released rfl hp owner, he.symm⟩
  | interrupt handler =>
      have mine := (sound.linked lock handler).mpr held
      have released
          : locking.performInInterrupt handler (.unlock lock)
            = .ok (locking.withoutLock handler lock) := if_pos mine
      have hp
          : locking.perform fuel (releaseScopedLock (.interrupt handler) lock)
            = .ok (locking.withoutLock handler lock) := released
      refine ⟨_, hp, sound.released trivial hp ?_, trivial⟩
      rw [(sound.performInInterrupt released).2.lock]
      exact sound.apart lock (by simp [mine])

theorem release_free_thread (free : (locking.lock lock).owner = none)
    : locking.perform fuel (releaseScopedLock (.thread thread) lock) = .ok locking := by
  simp [releaseScopedLock, perform, performInKernel, Kernel.perform,
    Kernel.unlockScoped, free, takesLinked, bind, Except.bind, pure, Except.pure]

/-- A thread may release its locks in any order and as often as it likes. Witness: induction on
the sequence; a lock in it is still held, or was released and has no owner.
-/
theorem Sound.releasesCleanly_thread (sound : locking.Sound)
    (executes : locking.Executes (.thread thread)) {released releases : List LockId}
    (free : ∀ lock ∈ released, (locking.lock lock).owner = none)
    (held
      : ∀ lock ∈ releases,
          lock ∈ released ∨ lock ∈ (locking.account (.thread thread)).locks)
    (fuel : Nat)
    : ReleasesCleanly fuel (.thread thread) released locking releases := by
  induction releases generalizing locking released with
  | nil => trivial
  | cons lock rest ih =>
      by_cases again : lock ∈ released
      · refine ⟨locking, release_free_thread (free lock again), fun _ => rfl,
          fun first => absurd again first, sound.priorityImplied _, ih sound executes ?_ ?_⟩
        · simpa [free lock again] using free
        · intro other hm
          rcases held other (by simp [hm]) with before | still
          · exact Or.inl (by simp [before])
          · exact Or.inr still
      · have holding := (held lock (by simp)).resolve_left again
        obtain ⟨next, hp, gone, runs⟩ := sound.release_held executes holding fuel
        have after := sound.perform hp
        refine ⟨next, hp, fun before => absurd before again, fun _ => gone,
          after.priorityImplied _, ih after runs ?_ ?_⟩
        · intro other hm
          rcases List.mem_cons.mp hm with rfl | before
          · exact gone.owner
          · obtain ⟨kernel, operated, -, rfl⟩ := performInKernel_ok hp
            exact ((accounts_perform operated).2 other).2 (free other before) (by simp)
        · intro other hm
          by_cases he : other = lock
          · exact Or.inl (by simp [he])
          · rcases held other (by simp [hm]) with before | still
            · exact Or.inl (by simp [before])
            · exact Or.inr ((gone.others other he).mpr still)

/-- An interrupt handler may release each of its locks once, in any order. -/
theorem Sound.releasesCleanly_handler (sound : locking.Sound) {released releases : List LockId}
    (once : releases.Nodup) (fresh : ∀ lock ∈ releases, lock ∉ released)
    (held : ∀ lock ∈ releases, lock ∈ (locking.account (.interrupt handler)).locks) (fuel : Nat)
    : ReleasesCleanly fuel (.interrupt handler) released locking releases := by
  induction releases generalizing locking released with
  | nil => trivial
  | cons lock rest ih =>
      obtain ⟨absent, once⟩ := List.nodup_cons.mp once
      have first := fresh lock (by simp)
      have executes : locking.Executes (.interrupt handler) := trivial
      obtain ⟨next, hp, gone, -⟩ :=
        sound.release_held executes (held lock (by simp)) fuel
      have after := sound.perform hp
      have hne {other : LockId} (hm : other ∈ rest) : other ≠ lock :=
        fun he => absent (he ▸ hm)
      refine ⟨next, hp, fun before => absurd before first, fun _ => gone,
        after.priorityImplied _, ih after once ?_ ?_⟩
      · intro other hm
        simp [hne hm, fresh other (by simp [hm])]
      · intro other hm
        exact (gone.others other (hne hm)).mpr (held other (by simp [hm]))

/-- A handler that released some locks already can only go on with others. Witness: a release
that returns found the lock linked by the handler, and unlinked it.
-/
theorem ReleasesCleanly.nodup {released releases : List LockId}
    (clean : ReleasesCleanly fuel (.interrupt handler) released locking releases)
    (unlinked : ∀ lock ∈ released, locking.nodeOwner lock ≠ some handler)
    : releases.Nodup ∧ ∀ lock ∈ releases, lock ∉ released := by
  induction releases generalizing locking released with
  | nil => simp
  | cons lock rest ih =>
      obtain ⟨next, hp, -, -, -, clean⟩ := clean
      have returned : locking.releaseLock handler lock = .ok next := hp
      obtain ⟨mine, rfl⟩ := releaseLock_ok returned
      have first : lock ∉ released := fun before => unlinked lock before mine
      obtain ⟨once, fresh⟩ := ih clean fun other hm => by
        change Function.update locking.nodeOwner lock none other ≠ some handler
        by_cases he : other = lock
        · simp [he]
        · rw [Function.update_of_ne he]
          exact unlinked other (by simpa [he] using hm)
      simp only [List.mem_cons, not_or] at fresh
      refine ⟨List.nodup_cons.mpr ⟨fun hm => (fresh lock hm).1 rfl, once⟩, ?_⟩
      intro other hm
      rcases List.mem_cons.mp hm with rfl | later
      · exact first
      · exact (fresh other later).2

theorem Reached.sound {program : Program}
    (reached : Reaches (perform fuel) (fun _ _ => True) (start program) locking)
    : locking.Sound :=
  reached.invariant Sound (start_sound program) fun _ _ _ sound _ hp =>
    sound.perform hp

/-- For every set of scoped locks that a context holds, and every sequence of unlock calls and
guard drops: all releases behave as they should exactly when the context is a thread, or a handler
that releases no lock twice.
-/
theorem releasesCleanly_iff {program : Program}
    (reached : Reaches (perform fuel) (fun _ _ => True) (start program) locking)
    (executes : locking.Executes context) {releases : List LockId}
    (held : ∀ lock ∈ releases, lock ∈ (locking.account context).locks)
    : ReleasesCleanly fuel context [] locking releases
      ↔ (∃ thread, context = .thread thread) ∨ releases.Nodup := by
  have sound := Reached.sound reached
  cases context with
  | thread thread =>
      refine ⟨fun _ => Or.inl ⟨thread, rfl⟩, fun _ => ?_⟩
      exact sound.releasesCleanly_thread executes (by simp)
        (fun lock hm => Or.inr (held lock hm)) fuel
  | interrupt handler =>
      constructor
      · intro clean
        exact Or.inr (clean.nodup (by simp)).1
      · intro condition
        have once := condition.resolve_left (by simp)
        exact sound.releasesCleanly_handler once (by simp) held fuel

/-- Thread 5 takes two locks, unlocks one and drops its guard afterwards. -/
theorem releasesCleanly_guardDrop
    : let program : Program :=
        ⟨fun thread => .thread thread.toUInt8, fun _ => .interrupt 4, fun _ => .interrupt 1⟩
      let ran := run (perform 1) (start program)
        [.kernel (.start 5), .kernel (.executePendingReschedule 0), .kernel (.lock 0),
          .kernel (.lock 1)]
      ∃ locking,
        ran = .ok locking ∧ ReleasesCleanly 1 (.thread 5) [] locking [1, 1, 0] := by
  intro program ran
  have view
      : ran.map (fun locking =>
          (locking.currentThread, (locking.account (.thread 5)).locks)) = .ok (5, [1, 0]) := by
    unfold ran program
    rfl
  obtain ⟨locking, ended⟩ : ∃ locking, ran = .ok locking := by
    unfold ran program
    exact ⟨_, rfl⟩
  rw [ended] at view
  obtain ⟨current, locks⟩ := Prod.mk.inj (Except.ok.inj view)
  have executes : locking.Executes (.thread 5) := current.symm
  have held : ∀ lock ∈ [1, 1, 0], lock ∈ (locking.account (.thread 5)).locks := by
    rw [locks]
    simp
  have reached := Reaches.here.run (fun _ _ _ => trivial) ended
  exact ⟨locking, ended, (releasesCleanly_iff reached executes held).mpr (Or.inl ⟨5, rfl⟩)⟩

/-- Handler 3 takes two locks, unlocks the second and drops its guard afterwards: the second
release does not return.
-/
theorem handler_guardDrop_faults
    : let program : Program :=
        ⟨fun thread => .thread thread.toUInt8, fun _ => .interrupt 4, fun _ => .interrupt 1⟩
      let ran := run (perform 1) (start program)
        [.handler 3 (.lock 0), .handler 3 (.lock 1), releaseScopedLock (.interrupt 3) 1]
      ran.map (fun locking => (locking.account (.interrupt 3)).locks) = .ok [0]
      ∧ (ran.bind fun locking =>
          (locking.perform 1 (releaseScopedLock (.interrupt 3) 1)).map fun _ => ())
        = .error .notInList := by
  exact ⟨rfl, rfl⟩

end Scars.Locking
