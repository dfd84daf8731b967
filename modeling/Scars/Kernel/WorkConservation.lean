import Scars.Kernel.PriorityRuns

/-! The processor does not idle while a thread could run.
The idle thread has the lowest thread priority, and a thread is only ever chosen over it by a
strict comparison.
-/

namespace Scars.Kernel

open Runs OrderedInsert

variable {kernel kernel' : Kernel} {thread : ThreadId} {fuel : Nat}

/-- The two kernels agree on the base priority of every thread. -/
def SameBase (kernel kernel' : Kernel) : Prop :=
  ∀ thread, (kernel'.thread thread).basePriority = (kernel.thread thread).basePriority

theorem SameBase.trans {first second third : Kernel} (left : SameBase first second)
    (right : SameBase second third)
    : SameBase first third :=
  fun thread => (right thread).trans (left thread)

theorem Scheduling.sameBase (scheduling : kernel.Scheduling kernel') : SameBase kernel kernel' :=
  fun thread => by rw [scheduling.thread]

/-- A lock operation rewrites the record of the current thread and keeps its base priority. -/
theorem sameBase_update {raw : RawThread}
    (threads : kernel'.thread = Function.update kernel.thread kernel.currentThread raw)
    (base : raw.basePriority = (kernel.thread kernel.currentThread).basePriority)
    : SameBase kernel kernel' := by
  intro thread
  rw [threads]
  by_cases he : thread = kernel.currentThread
  · subst he
    rw [Function.update_self, base]
  · rw [Function.update_of_ne he]

theorem sameBase_perform {op : Op} (hp : kernel.perform fuel op = .ok kernel')
    : SameBase kernel kernel' := by
  by_cases changes : ChangesLocks op
  · cases op with
    | lock lock =>
        obtain ⟨-, -, -, threads, -⟩ := lockScoped_ok hp
        exact sameBase_update threads rfl
    | unlock lock =>
        rcases unlockScoped_ok hp with ⟨-, rfl⟩ | ⟨-, released, rfl, -, threads, -⟩
        · exact fun _ => rfl
        · exact (sameBase_update threads rfl).trans scheduling_condReschedule.sameBase
    | enterSection ceiling =>
        cases hp
        exact sameBase_update (enterSection_thread ceiling) rfl
    | leaveSection =>
        obtain ⟨innermost, rest, released, -, rfl, -, threads, -⟩ := leaveSection_ok hp
        exact (sameBase_update threads rfl).trans scheduling_condReschedule.sameBase
    | _ => exact changes.elim
  · exact (scheduling_perform changes hp).sameBase

theorem sameBase_performSettled {event : Op × Settling × Instant}
    (hp : kernel.performSettled fuel event = .ok kernel')
    : SameBase kernel kernel' := by
  obtain ⟨middle, operated, settled⟩ := bind_ok.mp hp
  refine (sameBase_perform operated).trans ?_
  unfold settle at settled
  split at settled
  · cases settled; exact fun _ => rfl
  · split at settled
    · exact (scheduling_executePendingReschedule settled).sameBase
    · obtain ⟨yielded, yields, executed⟩ := bind_ok.mp settled
      exact (sameBase_perform yields).trans
        (scheduling_executePendingReschedule executed).sameBase

/-- No thread owns a scoped lock or is inside a section. -/
def NoLockHeld (kernel : Kernel) : Prop :=
  ∀ thread, (kernel.thread thread).scopedLocks = [] ∧ (kernel.thread thread).sections = []

/-- The idle thread runs only if no thread is ready. -/
def Conserves (kernel : Kernel) : Prop :=
  kernel.readyQueue ≠ [] → kernel.currentThread ≠ IDLE_THREAD_ID

theorem LocksSound.lockKey_eq_zero (sound : kernel.LocksSound) (free : kernel.NoLockHeld)
    (thread : ThreadId)
    : kernel.lockKey thread = 0 := by
  have nested := (sound thread).nested
  have owned := (sound thread).owned
  rw [(free thread).2] at nested
  rw [(free thread).1] at owned
  have nesting : (kernel.thread thread).lockPriorities.1 = .invalid := nested
  simp [lockKey, Kernel.lockPriority, RawThread.lockPriority, PriorityStatus.rank_max, nesting,
    owned, ownedStatus]

theorem rank_priority_of_free (free : kernel.lockKey thread = 0)
    : (kernel.priority thread).rank = (kernel.thread thread).basePriority.rank := by
  have active := Priority.rank_maxValid (kernel.thread thread).basePriority
    (kernel.thread thread).lockPriority
  simp only [lockKey, Kernel.lockPriority] at free
  rw [free] at active
  simp only [Kernel.priority, RawThread.priority]
  omega

/-- When nothing is more urgent than the idle thread, nothing above its priority is ready. -/
theorem Sound.conserves (sound : kernel.Sound) (urgent : kernel.NoInversion)
    (idle : (kernel.thread IDLE_THREAD_ID).basePriority = Priority.MIN)
    (above
      : ∀ thread, thread ≠ IDLE_THREAD_ID → 0 < (kernel.thread thread).basePriority.rank)
    (free : kernel.NoLockHeld)
    : kernel.Conserves := by
  intro waiting idles
  have unlocked := sound.locks.lockKey_eq_zero free
  obtain ⟨thread, ready⟩ := List.exists_mem_of_ne_nil _ waiting
  have notIdle : thread ≠ IDLE_THREAD_ID := ((sound.consistent.filed thread).ready.mp ready).2
  have ceiling : kernel.ceilingRank ≤ 0 := by
    apply ceilingRank_le
    · exact Nat.le_of_eq (unlocked _)
    · exact fun other _ => Nat.le_of_eq (unlocked other)
  have compared := noInversion_iff.mp urgent thread ready
  rw [idles, rank_priority_of_free (unlocked thread),
    rank_priority_of_free (unlocked IDLE_THREAD_ID), idle, Priority.rank_MIN] at compared
  have positive := above thread notIdle
  omega

/-- What a run with executed reschedules keeps. -/
structure Settled (program : Program) (kernel : Kernel) : Prop where
  sound : kernel.Sound
  urgent : kernel.NoInversion
  base : SameBase (Kernel.start program) kernel

theorem settled_of_reaches {program : Program}
    (reached
      : Reaches (performSettled fuel) (fun _ event => KeepsUrgency event.1)
          (Kernel.start program) kernel)
    : Settled program kernel := by
  apply reached.invariant (Settled program)
  · exact ⟨start_sound program, by simp [NoInversion, Kernel.start], fun _ => rfl⟩
  · intro before event after settled permitted hp
    obtain ⟨sound, urgent⟩ := settled.sound.performSettled settled.urgent permitted hp
    exact ⟨sound, urgent, settled.base.trans (sameBase_performSettled hp)⟩

/-- Starting a thread of the idle thread's own priority leaves it ready and the idle thread
running.
-/
theorem start_lowest (fuel : Nat) (program : Program) (notIdle : thread ≠ IDLE_THREAD_ID)
    (lowest : program.threadPriority thread = .thread 0)
    : ∃ kernel,
        (Kernel.start program).performSettled fuel (.start thread, .interruptExit, 0)
          = .ok kernel
        ∧ kernel.readyQueue = [thread] ∧ kernel.currentThread = IDLE_THREAD_ID
        ∧ kernel.NoLockHeld := by
  let ready := { (Kernel.start program).setState thread .ready with readyQueue := [thread] }
  have equal : ¬ Priority.thread 0 < Priority.thread 0 := by decide
  have started : (Kernel.start program).perform fuel (.start thread) = .ok ready := by
    simp [perform, startThread, resumeThread, moveToReady, insertToReadyQueue, requestIfHigher,
      Kernel.start, setState, inExecList, notIdle, insertPast, locksPriorityCeiling,
      Kernel.priority, Kernel.lockPriority, RawThread.priority, RawThread.lockPriority,
      PriorityStatus.max, Priority.maxValid, PriorityStatus.priority, lowest, Priority.MIN,
      equal, ready]
  -- nothing is pending, so the idle thread goes on
  refine ⟨ready, bind_ok.mpr ⟨ready, started, ?_⟩, rfl, rfl, fun _ => ⟨rfl, rfl⟩⟩
  exact if_pos rfl

/-- With threads of any thread priorities, runs never idle while an unlocked thread is ready
exactly when no thread but the idle one has the lowest priority.
-/
theorem workConservation_iff (fuel : Nat) (program : Program) (level : ThreadId → UInt8)
    : (∀ kernel,
        Reaches (performSettled fuel) (fun _ event => KeepsUrgency event.1)
          (Kernel.start { program with threadPriority := fun thread => .thread (level thread) })
          kernel
        → kernel.NoLockHeld
        → kernel.Conserves)
      ↔ ∀ thread, thread ≠ IDLE_THREAD_ID → level thread ≠ 0 := by
  constructor
  · intro conserves thread notIdle lowest
    obtain ⟨kernel, started, ready, idles, free⟩ := start_lowest fuel
      { program with threadPriority := fun thread => .thread (level thread) } notIdle
      (congrArg Priority.thread lowest)
    refine conserves kernel (Reaches.here.step ?_ started) free ?_ idles
    · trivial
    · simp [ready]
  · intro above kernel reached free
    have settled := settled_of_reaches reached
    apply settled.sound.conserves settled.urgent
    · rw [settled.base]
      rfl
    · intro thread notIdle
      rw [settled.base]
      have positive := above thread notIdle
      simp only [Kernel.start, notIdle, if_false, Priority.rank]
      exact Nat.pos_of_ne_zero fun zero => positive (UInt8.toNat_inj.mp zero)
    · exact free

/-- A started thread of priority 0 stays ready while the idle thread runs. -/
theorem lowestPriority_idles
    : let program : Program :=
        ⟨fun _ => .thread 0, fun _ => .thread 5, fun _ => .interrupt 1⟩
      let ran := run (performSettled 1) (Kernel.start program)
        [(.start 2, .interruptExit, 0), (.wakeupScheduler, .interruptExit, 1)]
      ran.map (fun kernel => (kernel.currentThread, kernel.readyQueue))
          = .ok (IDLE_THREAD_ID, [2])
      ∧ ∀ kernel, ran = .ok kernel → kernel.NoLockHeld ∧ ¬ kernel.Conserves := by
  refine ⟨rfl, fun kernel ran => ⟨fun thread => ?_, fun conserves => ?_⟩⟩
  · have record : kernel.thread thread = (Kernel.start _).thread thread :=
      congrFun (view_of_ok Kernel.thread ran rfl) thread
    rw [record]
    exact ⟨rfl, rfl⟩
  have current : kernel.currentThread = IDLE_THREAD_ID := view_of_ok Kernel.currentThread ran rfl
  have ready : kernel.readyQueue = [2] := view_of_ok Kernel.readyQueue ran rfl
  exact conserves (by simp [ready]) current

end Scars.Kernel
