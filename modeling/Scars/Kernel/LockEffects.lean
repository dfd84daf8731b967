import Scars.Kernel.Order

/-! What a successful lock operation of the current thread did to its record and to the
lock.
-/

namespace Scars.Kernel

open Runs OrderedInsert Function

/-- The second lock priority of a thread with these scoped locks: the ceiling of the first
one.
-/
def ownedStatus (kernel : Kernel) : List LockId → PriorityStatus
  | [] => .invalid
  | head :: _ => .valid (kernel.lock head).ceilingPriority

/-- The rank of a lock's ceiling. -/
def ceilingKey (kernel : Kernel) (lock : LockId) : Nat :=
  (kernel.lock lock).ceilingPriority.rank

variable {kernel kernel' : Kernel} {thread : ThreadId}

@[simp]
theorem setCeilingThreshold_thread (ceiling : PriorityStatus)
    : (kernel.setCeilingThreshold ceiling).thread = kernel.thread := by
  cases ceiling <;> rfl

@[simp]
theorem setCeilingThreshold_lock (ceiling : PriorityStatus)
    : (kernel.setCeilingThreshold ceiling).lock = kernel.lock := by
  cases ceiling <;> rfl

@[simp]
theorem setLockPriorities_thread (priorities : PriorityStatus × PriorityStatus)
    : (kernel.setLockPriorities thread priorities).thread
      = update kernel.thread thread
          { kernel.thread thread with lockPriorities := priorities } := by
  simp [setLockPriorities, setThread]

@[simp]
theorem setLockPriorities_lock (priorities : PriorityStatus × PriorityStatus)
    : (kernel.setLockPriorities thread priorities).lock = kernel.lock := by
  simp [setLockPriorities, setThread]

/-- The record of the current thread once it holds exactly these scoped locks. -/
def withScopedLocks (kernel : Kernel) (locks : List LockId) : RawThread :=
  { kernel.thread kernel.currentThread with
    scopedLocks := locks
    lockPriorities :=
      ((kernel.thread kernel.currentThread).lockPriorities.1, kernel.ownedStatus locks) }

/-- The scoped locks of the current thread and one more, behind those of higher ceilings. -/
def acquiredLocks (kernel : Kernel) (lock : LockId) : List LockId :=
  insertPast
    (fun held =>
      decide ((kernel.lock lock).ceilingPriority < (kernel.lock held).ceilingPriority))
    lock (kernel.thread kernel.currentThread).scopedLocks

theorem ceilingPriority_update (lock other : LockId) (owner : Option ThreadId)
    : (update kernel.lock lock { kernel.lock lock with owner := owner }
        other).ceilingPriority = (kernel.lock other).ceilingPriority := by
  by_cases he : other = lock
  · subst he; simp
  · simp [he]

/-- A successful acquisition passed every check and recorded the lock. -/
theorem lockScoped_ok {lock : LockId} (locked : kernel.lockScoped lock = .ok kernel')
    : kernel.currentThread ≠ IDLE_THREAD_ID ∧ (kernel.lock lock).owner = none
      ∧ ¬ (kernel.lock lock).ceilingPriority < kernel.priority kernel.currentThread
      ∧ kernel'.thread = update kernel.thread kernel.currentThread
          (kernel.withScopedLocks (kernel.acquiredLocks lock))
      ∧ kernel'.lock = update kernel.lock lock
          { kernel.lock lock with owner := some kernel.currentThread } := by
  unfold lockScoped at locked
  dsimp only at locked
  split at locked
  · cases locked
  next notIdle =>
  split at locked
  · cases locked
  next notMine =>
  split at locked
  · cases locked
  next notAbove =>
  unfold acquireScopedLock at locked
  split at locked
  · split at locked
    · cases locked
    next free =>
      cases locked
      refine ⟨notIdle, not_ne_iff.mp free, notAbove, ?_, ?_⟩
      · simp only [updateOwnedLockPriority, setLockPriorities_thread, setScopedLocks, setThread,
          setLockOwner, update_self, update_idem, withScopedLocks,
          acquiredLocks, ceilingPriority_update]
        congr 2
      · simp [updateOwnedLockPriority, setScopedLocks, setThread, setLockOwner]
  · cases locked

/-- A release does nothing on a free lock. Otherwise the current thread owned the lock,
gives it up and then compares its priority with the ready queue.
-/
theorem unlockScoped_ok {lock : LockId} (unlocked : kernel.unlockScoped lock = .ok kernel')
    : ((kernel.lock lock).owner = none ∧ kernel' = kernel)
      ∨ ((kernel.lock lock).owner = some kernel.currentThread
        ∧ ∃ released,
            kernel' = released.condReschedule ∧ kernel.SameLists released
            ∧ released.thread = update kernel.thread kernel.currentThread
                (kernel.withScopedLocks
                  ((kernel.thread kernel.currentThread).scopedLocks.erase lock))
            ∧ released.lock = update kernel.lock lock
                { kernel.lock lock with owner := none }) := by
  unfold unlockScoped at unlocked
  split at unlocked
  next free => exact Or.inl ⟨free, (Except.ok.inj unlocked).symm⟩
  next owner owned =>
  split at unlocked
  · cases unlocked
  next mine =>
  rw [not_ne_iff] at mine
  subst mine
  unfold releaseScopedLock at unlocked
  split at unlocked
  · cases unlocked
    refine Or.inr ⟨owned, _, rfl, ?_, ?_, ?_⟩
    · refine SameLists.trans ?_ (adjusts_setLockPriorities _).sameLists
      constructor <;> rfl
    · simp only [updateOwnedLockPriority, setLockPriorities_thread, setScopedLocks, setThread,
        setLockOwner, update_self, update_idem, withScopedLocks,
        ceilingPriority_update]
      congr 2
    · simp [updateOwnedLockPriority, setScopedLocks, setThread, setLockOwner]
  · cases unlocked

/-- The record of the current thread inside one more section. -/
def withSection (kernel : Kernel) (ceiling : Priority) : RawThread :=
  let raw := kernel.thread kernel.currentThread
  { raw with
    sections := { ceiling, savedPriority := raw.lockPriorities.1 } :: raw.sections
    lockPriorities :=
      (raw.lockPriorities.1.max (.valid (ceiling.max raw.basePriority)),
        raw.lockPriorities.2) }

theorem enterSection_thread (ceiling : Priority)
    : (kernel.enterSection ceiling).thread
      = update kernel.thread kernel.currentThread (kernel.withSection ceiling) := by
  simp [enterSection, withSection, setThread]

theorem enterSection_lock (ceiling : Priority)
    : (kernel.enterSection ceiling).lock = kernel.lock := by
  simp [enterSection, setThread]

/-- The record of the current thread after its innermost section. -/
def withoutSection (kernel : Kernel) (innermost : CeilingSection) (rest : List CeilingSection)
    : RawThread :=
  let raw := kernel.thread kernel.currentThread
  { raw with
    sections := rest
    lockPriorities := (innermost.savedPriority, raw.lockPriorities.2) }

/-- Leaving a section restores the saved priority and compares it with the ready queue. -/
theorem leaveSection_ok (left : kernel.leaveSection = .ok kernel')
    : ∃ innermost rest released,
        (kernel.thread kernel.currentThread).sections = innermost :: rest
        ∧ kernel' = released.condReschedule ∧ kernel.SameLists released
        ∧ released.thread = update kernel.thread kernel.currentThread
            (kernel.withoutSection innermost rest)
        ∧ released.lock = kernel.lock := by
  unfold leaveSection at left
  dsimp only at left
  split at left
  · cases left
  next innermost rest opened =>
    cases left
    refine ⟨innermost, rest, _, opened, rfl, ?_, ?_, ?_⟩
    · exact (adjusts_setThread _).sameLists.trans (adjusts_setLockPriorities _).sameLists
    · simp [withoutSection, setThread]
    · simp [setThread]

end Scars.Kernel
