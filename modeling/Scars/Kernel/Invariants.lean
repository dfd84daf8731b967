import Scars.Kernel.LockState

/-! What holds in every kernel a run reaches, whatever its operations.
States agree with lists, the lists are sorted, and lock priorities report what is held.
-/

namespace Scars.Kernel

open Runs OrderedInsert

/-- The invariants of the scheduler that no operation can break. -/
structure Sound (kernel : Kernel) : Prop where
  consistent : kernel.Consistent
  ordered : kernel.Ordered
  locks : kernel.LocksSound

variable {kernel kernel' : Kernel} {thread : ThreadId} {fuel : Nat} {op : Op}

theorem start_sound (program : Program) : (Kernel.start program).Sound where
  consistent := start_consistent program
  ordered := by constructor <;> exact List.Pairwise.nil
  locks := start_locksSound program

theorem Consistent.current_unlisted (hc : kernel.Consistent)
    : kernel.currentThread ∉ kernel.readyQueue
      ∧ kernel.currentThread ∉ kernel.blockedList := by
  have runs := (hc.running kernel.currentThread).mpr rfl
  have filed := hc.filed kernel.currentThread
  exact ⟨by simp [filed.ready, runs], by simp [filed.blocked, runs]⟩

/-- Lock operations change the current thread only, which is in neither sorted list. -/
theorem Ordered.updateCurrent (ordered : kernel.Ordered) (hc : kernel.Consistent)
    {raw : RawThread} (he : kernel.SameLists kernel')
    (threads : kernel'.thread = Function.update kernel.thread kernel.currentThread raw)
    : kernel'.Ordered := by
  obtain ⟨notReady, notBlocked⟩ := hc.current_unlisted
  have untouched {thread : ThreadId} (hne : thread ≠ kernel.currentThread)
      : kernel'.thread thread = kernel.thread thread := by
    rw [threads, Function.update_of_ne hne]
  refine ordered.sublist (he.ready ▸ .refl _) (he.blocked ▸ .refl _) ?_ ?_
  · intro thread hm
    exact untouched fun isCurrent => notReady (isCurrent ▸ he.ready ▸ hm)
  · intro thread hm
    exact untouched fun isCurrent => notBlocked (isCurrent ▸ he.blocked ▸ hm)

theorem Sound.scheduling (sound : kernel.Sound) (scheduling : kernel.Scheduling kernel')
    (hc : kernel'.Consistent)
    : kernel'.Sound where
  consistent := hc
  ordered := scheduling.ordered sound.ordered
  locks := sound.locks.scheduling scheduling

theorem scheduling_notifyNext {queue : WaitQueueId}
    (notified : kernel.notifyNext queue = .ok kernel')
    : kernel.Scheduling kernel' := by
  obtain ⟨waitQueue, waitOwner, rfl | ⟨thread, resumed⟩⟩ := notifyNext_ok notified
  · exact .of_eq rfl
  · refine Scheduling.trans ?_ (scheduling_resumeThread resumed)
    exact .of_eq rfl

/-- The running thread takes or gives up a lock. -/
def ChangesLocks : Op → Prop
  | .lock _ => True
  | .unlock _ => True
  | .enterSection _ => True
  | .leaveSection => True
  | _ => False

theorem scheduling_perform (keeps : ¬ ChangesLocks op) (hp : kernel.perform fuel op = .ok kernel')
    : kernel.Scheduling kernel' := by
  cases op with
  | lock lock => exact absurd trivial keeps
  | unlock lock => exact absurd trivial keeps
  | enterSection ceiling => exact absurd trivial keeps
  | leaveSection => exact absurd trivial keeps
  | suspend thread => exact scheduling_suspendThread hp
  | wait queue ceiling => exact scheduling_waitCurrentThread hp
  | notifyNext queue => exact scheduling_notifyNext hp
  | _ => exact steady_scheduling.perform scheduling_requests hp trivial

theorem LocksSound.perform (sound : kernel.LocksSound) (hp : kernel.perform fuel op = .ok kernel')
    : kernel'.LocksSound := by
  by_cases changes : ChangesLocks op
  · cases op with
    | lock lock => exact sound.lockScoped hp
    | unlock lock => exact sound.unlockScoped hp
    | enterSection ceiling => cases hp; exact sound.enterSection ceiling
    | leaveSection => exact sound.leaveSection hp
    | _ => exact changes.elim
  · exact sound.scheduling (scheduling_perform changes hp)

/-- No operation breaks the invariants. Witness: scheduling leaves locks alone; a lock
operation rewrites the current thread, which no sorted list contains.
-/
theorem Sound.perform (sound : kernel.Sound) (hp : kernel.perform fuel op = .ok kernel')
    : kernel'.Sound := by
  have hc := sound.consistent.perform hp
  by_cases changes : ChangesLocks op
  · refine ⟨hc, ?_, sound.locks.perform hp⟩
    cases op with
    | lock lock =>
        obtain ⟨-, -, -, threads, -⟩ := lockScoped_ok hp
        exact sound.ordered.updateCurrent sound.consistent
          (adjusts_lockScoped hp).sameLists threads
    | unlock lock =>
        rcases unlockScoped_ok hp with
          ⟨-, rfl⟩ | ⟨-, released, rfl, he, threads, -⟩
        · exact sound.ordered
        · exact scheduling_condReschedule.ordered
            (sound.ordered.updateCurrent sound.consistent he threads)
    | enterSection ceiling =>
        cases hp
        exact sound.ordered.updateCurrent sound.consistent
          (adjusts_enterSection ceiling).sameLists (enterSection_thread ceiling)
    | leaveSection =>
        obtain ⟨innermost, rest, released, -, rfl, he, threads, -⟩ :=
          leaveSection_ok hp
        exact scheduling_condReschedule.ordered
          (sound.ordered.updateCurrent sound.consistent he threads)
    | _ => exact changes.elim
  · exact sound.scheduling (scheduling_perform changes hp) hc

theorem Reached.sound {program : Program} {permitted : Kernel → Op → Prop}
    (reached : Reached fuel program permitted kernel)
    : kernel.Sound :=
  reached.invariant Sound (start_sound program)
    fun _ _ _ sound _ hp => sound.perform hp

end Scars.Kernel
