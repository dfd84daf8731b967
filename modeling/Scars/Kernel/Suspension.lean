import Scars.Kernel.Holders

/-! Suspending a thread.
A blocked thread stays linked in the blocked list, so it cannot enter the suspended list. The
locks of a suspended thread do not count towards the lock ceiling. Locks of others may hide
this for a while, but any of them can be released while the thread is still suspended.
-/

namespace Scars.Kernel

open Runs OrderedInsert Function

variable {kernel kernel' : Kernel} {thread : ThreadId} {fuel : Nat} {ceiling : Priority}

/-- What the ceiling of a held lock is to do: the lock ceiling reaches it, and an operation
that changes the current thread continues with the idle thread, with the holder, or above it.
-/
structure KeepsCeiling (fuel : Nat) (kernel : Kernel) (thread : ThreadId) (ceiling : Priority)
    : Prop where
  reached : kernel.locksPriorityCeiling.ge (.valid ceiling) = true
  chosen
    : ∀ op next,
        kernel.perform fuel op = .ok next
        → next.currentThread ≠ kernel.currentThread
        → next.currentThread = IDLE_THREAD_ID ∨ next.currentThread = thread
          ∨ ceiling < next.priority next.currentThread

/-- What a suspension is to leave behind: the thread is suspended and in no other list, and
whatever happens next, every ceiling it holds is kept until it releases it.
-/
structure SuspendedSafely (fuel : Nat) (kernel : Kernel) (thread : ThreadId) : Prop where
  suspended : thread ∈ kernel.suspendedList
  notReady : thread ∉ kernel.readyQueue
  notBlocked : thread ∉ kernel.blockedList
  kept
    : ∀ ceiling later,
        Reaches (perform fuel) (fun kernel _ => kernel.Holds thread ceiling) kernel later
        → later.Holds thread ceiling
        → later.KeepsCeiling fuel thread ceiling

/-- A thread in no list enters the suspended list. -/
theorem insertToSuspendedList_of_free (notIdle : thread ≠ IDLE_THREAD_ID)
    (free : kernel.inExecList thread = false)
    : kernel.insertToSuspendedList thread
      = .ok { kernel.setState thread .suspended with
          suspendedList := kernel.suspendedList ++ [thread] } := by
  have marked : (kernel.setState thread .suspended).inExecList thread = false := free
  unfold insertToSuspendedList
  dsimp only
  rw [if_neg notIdle, if_neg (by simp [marked])]
  rfl

section

variable (hc : kernel.Consistent)
include hc

/-- A ready thread leaves the ready queue for the suspended list. -/
theorem Consistent.suspend_ready (ready : kernel.state thread = .ready)
    (notIdle : thread ≠ IDLE_THREAD_ID)
    : ∃ kernel', kernel.suspendThread (some thread) = .ok kernel'
        ∧ thread ∈ kernel'.suspendedList := by
  have hq := (hc.filed thread).ready.mpr ⟨ready, notIdle⟩
  have detached := hc.detach_ready ready
  have free := inExecList_eq_false.mpr
    ⟨detached.notReady, detached.notBlocked, detached.notSuspended⟩
  have removed
      : kernel.removeFromReadyQueue thread
        = .ok { kernel with readyQueue := kernel.readyQueue.erase thread } := by
    simp [removeFromReadyQueue, hq]
  refine ⟨_, Eq.trans ?_ (insertToSuspendedList_of_free notIdle free), by simp⟩
  simp only [Kernel.suspendThread, Option.getD_some, ready, removed]
  rfl

/-- The running thread hands over and enters the suspended list. -/
theorem Consistent.suspend_running (running : kernel.state thread = .running)
    (notIdle : thread ≠ IDLE_THREAD_ID)
    : ∃ kernel', kernel.suspendThread (some thread) = .ok kernel'
        ∧ thread ∈ kernel'.suspendedList := by
  have current := (hc.running thread).mp running
  subst current
  have detached := (hc.handOver notIdle).1
  have free := inExecList_eq_false.mpr
    ⟨detached.notReady, detached.notBlocked, detached.notSuspended⟩
  refine ⟨_, Eq.trans ?_ (insertToSuspendedList_of_free notIdle free), by simp⟩
  simp only [Kernel.suspendThread, Option.getD_some, running, handOver_fst]

/-- Every started thread that is not blocked can be suspended. -/
theorem Consistent.suspends (notIdle : thread ≠ IDLE_THREAD_ID)
    (started : kernel.state thread ≠ .created) (notBlocked : kernel.state thread ≠ .blocked)
    : ∃ kernel', kernel.suspendThread (some thread) = .ok kernel'
        ∧ thread ∈ kernel'.suspendedList := by
  have filed := hc.filed thread
  cases state : kernel.state thread with
  | ready => exact hc.suspend_ready state notIdle
  | running => exact hc.suspend_running state notIdle
  | blocked => exact absurd state notBlocked
  | created => exact absurd state started
  | suspended =>
      exact ⟨kernel, by simp [Kernel.suspendThread, state], filed.suspended.mpr ⟨state, notIdle⟩⟩
  | started =>
      have free : kernel.inExecList thread = false := by
        simp [inExecList_eq_false, filed.ready, filed.blocked, filed.suspended, state]
      refine ⟨_, Eq.trans ?_ (insertToSuspendedList_of_free notIdle free), by simp⟩
      simp only [Kernel.suspendThread, Option.getD_some, state]

/-- The link of a blocked thread is still taken, so its suspension does not return. -/
theorem Consistent.suspend_blocked (blocked : kernel.state thread = .blocked)
    (notIdle : thread ≠ IDLE_THREAD_ID)
    : kernel.suspendThread (some thread) = .error .alreadyInList := by
  have listed := (hc.filed thread).blocked.mpr ⟨blocked, notIdle⟩
  simp [Kernel.suspendThread, blocked, Kernel.insertToSuspendedList, notIdle, setState, inExecList,
    listed]

end

/-- A thread in no list enters the ready queue. -/
theorem insertToReadyQueue_enters (notIdle : thread ≠ IDLE_THREAD_ID)
    (free : kernel.inExecList thread = false)
    : ∃ kernel', kernel.insertToReadyQueue thread = .ok kernel'
        ∧ kernel'.currentThread = kernel.currentThread
        ∧ kernel'.blockedList = kernel.blockedList := by
  have marked : (kernel.setState thread .ready).inExecList thread = false := free
  unfold insertToReadyQueue
  dsimp only
  rw [if_neg notIdle, if_neg (by simp [marked])]
  exact ⟨_, rfl, rfl, rfl⟩

/-- A blocked thread can be resumed, and then it is blocked no more. -/
theorem Consistent.resume_blocked (hc : kernel.Consistent) (listed : thread ∈ kernel.blockedList)
    : ∃ kernel', kernel.resumeThread thread = .ok kernel'
        ∧ kernel'.currentThread = kernel.currentThread
        ∧ kernel'.blockedList = kernel.blockedList.erase thread := by
  obtain ⟨blocked, notIdle⟩ := (hc.filed thread).blocked.mp listed
  have detached := hc.detach_blocked blocked
  let awake := (kernel.setResumeEvent thread).leaveSleepQueue (.thread thread)
  have awake_eq : awake = { kernel.setResumeEvent thread with
      sleepQueue := kernel.sleepQueue.erase (.thread thread) } := leaveSleepQueue_eq _
  have removed : awake.removeFromBlockedList thread = .ok (awake.unblocked thread) := by
    simp [removeFromBlockedList, awake_eq, setResumeEvent, setEvents, listed, unblocked]
  have free : (awake.unblocked thread).inExecList thread = false := by
    rw [awake_eq]
    exact inExecList_eq_false.mpr
      ⟨detached.notReady, detached.notBlocked, detached.notSuspended⟩
  obtain ⟨moved, hi, current, blockedList⟩ := insertToReadyQueue_enters notIdle free
  have moves : kernel.moveToReady thread = .ok moved := by
    unfold moveToReady
    simp only [blocked]
    exact bind_ok.mpr ⟨_, removed, hi⟩
  have adjusts : moved.Adjusts (moved.requestIfHigher thread) := adjusts_requestIfHigher
  refine ⟨moved.requestIfHigher thread, bind_ok.mpr ⟨moved, moves, rfl⟩, ?_, ?_⟩
  · rw [adjusts.currentThread, current, awake_eq]
    rfl
  · rw [adjusts.sameLists.blocked, blockedList, awake_eq]
    rfl

/-- Scheduling alone takes no lock and releases none. -/
theorem Scheduling.holds_iff (scheduling : kernel.Scheduling kernel')
    : kernel'.Holds thread ceiling ↔ kernel.Holds thread ceiling := by
  unfold Holds
  rw [scheduling.thread, scheduling.lock]

/-- How many blocked threads and locks of the current thread the lock ceiling may rest on. -/
def coverCount (kernel : Kernel) : Nat :=
  kernel.blockedList.length + (kernel.thread kernel.currentThread).sections.length
    + (kernel.thread kernel.currentThread).scopedLocks.length

/-- One cover of the lock ceiling is gone, and the thread still holds its lock. -/
structure Uncovers (kernel : Kernel) (thread : ThreadId) (ceiling : Priority) (kernel' : Kernel)
    : Prop where
  current : kernel'.currentThread = kernel.currentThread
  holds : kernel.Holds thread ceiling → kernel'.Holds thread ceiling
  fewer : kernel'.coverCount < kernel.coverCount

/-- A blocked thread is no cover once it is resumed. -/
theorem Consistent.uncovers_resume (hc : kernel.Consistent) {blocked : ThreadId}
    (listed : blocked ∈ kernel.blockedList) (ceiling : Priority)
    : ∃ kernel', kernel.resumeThread blocked = .ok kernel'
        ∧ kernel.Uncovers thread ceiling kernel' := by
  obtain ⟨kernel', resumed, current, blockedList⟩ := hc.resume_blocked listed
  have scheduling := scheduling_resumeThread resumed
  refine ⟨kernel', resumed, current, scheduling.holds_iff.mpr, ?_⟩
  have shorter := List.length_erase_of_mem listed
  have positive := List.length_pos_of_mem listed
  simp only [coverCount, current, scheduling.thread, blockedList]
  omega

/-- Locks of another thread are the same after the record of the current one changed. -/
theorem holds_released {released : Kernel} {raw : RawThread} (other : thread ≠ kernel.currentThread)
    (threads : released.thread = update kernel.thread kernel.currentThread raw)
    (owners
      : ∀ lock, (kernel.lock lock).owner = some thread → released.lock lock = kernel.lock lock)
    (held : kernel.Holds thread ceiling)
    : released.condReschedule.Holds thread ceiling := by
  rw [scheduling_condReschedule.holds_iff]
  rcases held with ⟨lock, owner, ceilingOf⟩ | inside
  · refine .inl ⟨lock, ?_⟩
    rw [owners lock owner]
    exact ⟨owner, ceilingOf⟩
  · refine .inr ?_
    rwa [threads, update_of_ne other]

/-- The current thread can leave its innermost section. -/
theorem uncovers_leaveSection (other : thread ≠ kernel.currentThread)
    {innermost : CeilingSection} {rest : List CeilingSection}
    (opened : (kernel.thread kernel.currentThread).sections = innermost :: rest)
    (ceiling : Priority)
    : ∃ kernel', kernel.leaveSection = .ok kernel' ∧ kernel.Uncovers thread ceiling kernel' := by
  have returns : ∃ kernel', kernel.leaveSection = .ok kernel' := by
    simp [leaveSection, opened]
  obtain ⟨kernel', left⟩ := returns
  obtain ⟨first, others, released, sections, rfl, he, threads, locks⟩ := leaveSection_ok left
  have adjusts := adjusts_leaveSection left
  refine ⟨_, left, adjusts.currentThread, holds_released other threads (by simp [locks]), ?_⟩
  simp only [coverCount, adjusts.currentThread, adjusts.sameLists.blocked,
    scheduling_condReschedule.thread, threads, update_self, withoutSection, sections,
    List.length_cons]
  omega

/-- The current thread can release a scoped lock it lists. -/
theorem LocksSound.uncovers_unlock (sound : kernel.LocksSound)
    (other : thread ≠ kernel.currentThread) {lock : LockId}
    (listed : lock ∈ (kernel.thread kernel.currentThread).scopedLocks) (ceiling : Priority)
    : ∃ kernel', kernel.unlockScoped lock = .ok kernel'
        ∧ kernel.Uncovers thread ceiling kernel' := by
  have owned := ((sound kernel.currentThread).owner lock).mpr listed
  have returns : ∃ kernel', kernel.unlockScoped lock = .ok kernel' := by
    simp [Kernel.unlockScoped, owned, releaseScopedLock, listed]
  obtain ⟨kernel', unlocked⟩ := returns
  rcases unlockScoped_ok unlocked with ⟨free, -⟩ | ⟨-, released, rfl, he, threads, locks⟩
  · rw [owned] at free
    cases free
  · have adjusts := adjusts_unlockScoped unlocked
    have owners : ∀ held, (kernel.lock held).owner = some thread
        → released.lock held = kernel.lock held := by
      intro held owner
      have hne : held ≠ lock := by
        rintro rfl
        rw [owned] at owner
        exact other (Option.some.inj owner).symm
      rw [locks, update_of_ne hne]
    refine ⟨_, unlocked, adjusts.currentThread, holds_released other threads owners, ?_⟩
    have shorter := List.length_erase_of_mem listed
    have positive := List.length_pos_of_mem listed
    simp only [coverCount, adjusts.currentThread, adjusts.sameLists.blocked,
      scheduling_condReschedule.thread, threads, update_self, withScopedLocks]
    omega

/-- Without covers there is no lock ceiling. -/
theorem LocksSound.ceiling_uncovered (sound : kernel.LocksSound)
    (noneBlocked : kernel.blockedList = [])
    (noSection : (kernel.thread kernel.currentThread).sections = [])
    (noLock : (kernel.thread kernel.currentThread).scopedLocks = [])
    : kernel.locksPriorityCeiling = .invalid := by
  have nested := (sound kernel.currentThread).nested
  have owned := (sound kernel.currentThread).owned
  rw [noSection] at nested
  rw [noLock] at owned
  have nesting : (kernel.thread kernel.currentThread).lockPriorities.1 = .invalid := nested
  simp only [locksPriorityCeiling, noneBlocked, lockPriority, RawThread.lockPriority, nesting,
    owned, ownedStatus]
  rfl

/-- As long as the lock ceiling is valid, some operation takes a cover away. -/
theorem Sound.uncovers (sound : kernel.Sound) (other : thread ≠ kernel.currentThread)
    (valid : kernel.locksPriorityCeiling ≠ .invalid) (fuel : Nat) (ceiling : Priority)
    : ∃ op kernel', kernel.perform fuel op = .ok kernel'
        ∧ kernel.Uncovers thread ceiling kernel' := by
  cases blockedList : kernel.blockedList with
  | cons blocked rest =>
      exact ⟨.resume blocked, sound.consistent.uncovers_resume (by simp [blockedList]) ceiling⟩
  | nil =>
      cases sections : (kernel.thread kernel.currentThread).sections with
      | cons innermost rest => exact ⟨.leaveSection, uncovers_leaveSection other sections ceiling⟩
      | nil =>
          cases locks : (kernel.thread kernel.currentThread).scopedLocks with
          | cons lock rest =>
              exact ⟨.unlock lock, sound.locks.uncovers_unlock other (by simp [locks]) ceiling⟩
          | nil => exact absurd (sound.locks.ceiling_uncovered blockedList sections locks) valid

/-- Whatever covers the lock of a thread that does not run, the others can release it all
while the thread keeps its lock. Witness: induction on the number of covers.
-/
theorem Sound.reaches_uncovered (fuel : Nat) {start kernel : Kernel}
    (reached
      : Reaches (Kernel.perform fuel) (fun kernel _ => kernel.Holds thread ceiling) start kernel)
    (sound : kernel.Sound) (other : thread ≠ kernel.currentThread)
    (held : kernel.Holds thread ceiling)
    : ∃ later,
        Reaches (Kernel.perform fuel) (fun kernel _ => kernel.Holds thread ceiling) start later
        ∧ later.Holds thread ceiling ∧ later.locksPriorityCeiling = .invalid := by
  by_cases uncovered : kernel.locksPriorityCeiling = .invalid
  · exact ⟨kernel, reached, held, uncovered⟩
  · obtain ⟨op, kernel', hp, uncovers⟩ := sound.uncovers other uncovered fuel ceiling
    exact Sound.reaches_uncovered fuel (reached.step held hp) (sound.perform hp)
      (by rwa [uncovers.current]) (uncovers.holds held)
  termination_by kernel.coverCount
  decreasing_by exact uncovers.fewer

/-- Suspending a lock holder is never safe: some run of the others lets the ceiling go. -/
theorem Sound.not_holds_of_safely (sound : kernel.Sound)
    (safely : kernel.SuspendedSafely fuel thread) (ceiling : Priority)
    : ¬ kernel.Holds thread ceiling := by
  intro held
  have state := ((sound.consistent.filed thread).suspended.mp safely.suspended).1
  have other := sound.consistent.ne_current (by simp [state] : kernel.state thread ≠ .running)
  obtain ⟨later, reached, holds, uncovered⟩ :=
    Sound.reaches_uncovered fuel .here sound other held
  have kept := (safely.kept ceiling later reached holds).reached
  rw [uncovered] at kept
  cases kept

/-- A lock that is held during a whole run was held at its start. -/
theorem held_at_start {later : Kernel}
    (reached : Reaches (perform fuel) (fun kernel _ => kernel.Holds thread ceiling) kernel later)
    (held : later.Holds thread ceiling)
    : kernel.Holds thread ceiling := by
  induction reached with
  | here => exact held
  | step _ before _ ih => exact ih before

/-- In every reachable kernel, suspending a started thread returns and is safe exactly when
the thread is not blocked and holds no lock.
-/
theorem suspendThread_safe_iff (fuel : Nat) (program : Program)
    (reached : Reached fuel program (fun _ _ => True) kernel)
    (notIdle : thread ≠ IDLE_THREAD_ID) (started : kernel.state thread ≠ .created)
    : (∃ kernel', kernel.suspendThread (some thread) = .ok kernel'
        ∧ kernel'.SuspendedSafely fuel thread)
      ↔ kernel.state thread ≠ .blocked ∧ ∀ ceiling, ¬ kernel.Holds thread ceiling := by
  have sound := reached.sound
  constructor
  · rintro ⟨kernel', returned, safely⟩
    refine ⟨?_, fun ceiling held => ?_⟩
    · intro blocked
      rw [sound.consistent.suspend_blocked blocked notIdle] at returned
      cases returned
    · have hp : kernel.perform fuel (.suspend (some thread)) = .ok kernel' := returned
      have after := sound.perform hp
      exact after.not_holds_of_safely safely ceiling
        ((scheduling_suspendThread returned).holds_iff.mpr held)
  · rintro ⟨notBlocked, free⟩
    obtain ⟨kernel', returned, suspended⟩ :=
      sound.consistent.suspends notIdle started notBlocked
    have filed := (sound.consistent.suspendThread returned).filed thread
    have state := (filed.suspended.mp suspended).1
    exact ⟨kernel', returned, {
      suspended := suspended
      notReady := by simp [filed.ready, state]
      notBlocked := by simp [filed.blocked, state]
      kept := fun ceiling later ran held =>
        absurd ((scheduling_suspendThread returned).holds_iff.mp (held_at_start ran held))
          (free ceiling)
    }⟩

/-- A sleeper cannot be suspended, and the suspension of a lock holder drops the ceiling of its
lock, so that a thread below the ceiling is chosen next.
-/
theorem suspension_unsafe
    : let program : Program :=
        ⟨fun thread => .thread thread.toUInt8, fun _ => .thread 9, fun _ => .interrupt 1⟩
      let started : List Op := [.start 5, .executePendingReschedule 0, .start 2]
      let sleeping := run (perform 1) (Kernel.start program) (started ++ [.delayUntil 7])
      let holding := run (perform 1) (Kernel.start program) (started ++ [.lock 0])
      (∃ kernel, sleeping = .ok kernel
        ∧ kernel.suspendThread (some 5) = .error .alreadyInList)
      ∧ (∃ kernel kernel', holding = .ok kernel ∧ kernel.Holds 5 (.thread 9)
        ∧ kernel.suspendThread (some 5) = .ok kernel'
        ∧ kernel'.locksPriorityCeiling = .invalid ∧ kernel'.currentThread = IDLE_THREAD_ID
        ∧ kernel'.takeNextAboveLocks.1 = 2
        ∧ ¬ kernel'.SuspendedSafely 1 5) := by
  refine ⟨⟨_, rfl, rfl⟩, _, _, rfl, Or.inl ⟨0, rfl, rfl⟩, rfl, rfl, rfl, rfl, fun safely => ?_⟩
  have kept := safely.kept (.thread 9) _ .here (Or.inl ⟨0, rfl, rfl⟩)
  cases kept.reached

/-- A ready thread without locks. -/
theorem suspendThread_safe_ready
    : ∃ kernel kernel' : Kernel, kernel.state 2 = .ready
        ∧ kernel.suspendThread (some 2) = .ok kernel' ∧ kernel'.SuspendedSafely 1 2 := by
  let program : Program :=
    ⟨fun thread => .thread thread.toUInt8, fun _ => .thread 9, fun _ => .interrupt 1⟩
  have started
      : ∃ kernel, run (perform 1) (Kernel.start program) [.start 2] = .ok kernel
          ∧ kernel.state 2 = .ready ∧ kernel.thread = (Kernel.start program).thread
          ∧ kernel.lock = (Kernel.start program).lock :=
    ⟨_, rfl, rfl, rfl, rfl⟩
  obtain ⟨kernel, ran, ready, threads, locks⟩ := started
  have reached : Reached 1 program (fun _ _ => True) kernel :=
    Reaches.here.run (fun _ _ _ => trivial) ran
  have free : ∀ ceiling, ¬ kernel.Holds 2 ceiling := by
    rintro ceiling (⟨lock, owned, -⟩ | ⟨opened, inside, -⟩)
    · simp [locks, Kernel.start] at owned
    · simp [threads, Kernel.start] at inside
  obtain ⟨kernel', returned, safely⟩ :=
    (suspendThread_safe_iff 1 program reached (by decide) (by simp [ready])).mpr
      ⟨by simp [ready], free⟩
  exact ⟨kernel, kernel', ready, returned, safely⟩

end Scars.Kernel
