import Scars.Kernel.Effects

/-! Thread states agree with the execution lists.
An operation takes a thread out of the lists; while it is detached only the others are filed under
their state. Filing it again restores the agreement.
-/

namespace Scars.Kernel

open Runs OrderedInsert

/-- A thread is in exactly the list its state names. The idle thread is in none, and only
a blocked thread with a deadline sleeps.
-/
structure Filed (kernel : Kernel) (thread : ThreadId) : Prop where
  ready
    : thread ∈ kernel.readyQueue ↔ kernel.state thread = .ready ∧ thread ≠ IDLE_THREAD_ID
  blocked
    : thread ∈ kernel.blockedList ↔ kernel.state thread = .blocked ∧ thread ≠ IDLE_THREAD_ID
  suspended
    : thread ∈ kernel.suspendedList
      ↔ kernel.state thread = .suspended ∧ thread ≠ IDLE_THREAD_ID
  sleeping
    : .thread thread ∈ kernel.sleepQueue
      → kernel.state thread = .blocked ∧ (kernel.deadline (.thread thread)).isSome = true

/-- No list holds an element twice. -/
structure Unrepeated (kernel : Kernel) : Prop where
  ready : kernel.readyQueue.Nodup
  blocked : kernel.blockedList.Nodup
  suspended : kernel.suspendedList.Nodup
  sleeping : kernel.sleepQueue.Nodup

/-- Every thread is filed under its state, and the current thread alone is running. -/
structure Consistent (kernel : Kernel) : Prop where
  running : ∀ thread, kernel.state thread = .running ↔ thread = kernel.currentThread
  idle
    : kernel.state IDLE_THREAD_ID = .ready ∨ kernel.state IDLE_THREAD_ID = .running
  filed : ∀ thread, kernel.Filed thread
  unrepeated : kernel.Unrepeated

/-- One thread other than the current one is moving; all others are filed. -/
structure OthersFiled (kernel : Kernel) (thread : ThreadId) : Prop where
  notCurrent : thread ≠ kernel.currentThread
  running
    : ∀ other, other ≠ thread → (kernel.state other = .running ↔ other = kernel.currentThread)
  idle
    : IDLE_THREAD_ID ≠ thread
      → kernel.state IDLE_THREAD_ID = .ready ∨ kernel.state IDLE_THREAD_ID = .running
  filed : ∀ other, other ≠ thread → kernel.Filed other
  unrepeated : kernel.Unrepeated

/-- The moving thread is in no execution list. -/
structure Detached (kernel : Kernel) (thread : ThreadId) : Prop
    extends kernel.OthersFiled thread where
  notReady : thread ∉ kernel.readyQueue
  notBlocked : thread ∉ kernel.blockedList
  notSuspended : thread ∉ kernel.suspendedList

/-- The kernel a program starts with is consistent: only the idle thread runs. -/
theorem start_consistent (program : Program) : (Kernel.start program).Consistent where
  running thread := by
    by_cases he : thread = IDLE_THREAD_ID <;> simp [Kernel.start, he]
  idle := Or.inr rfl
  filed thread := by
    by_cases he : thread = IDLE_THREAD_ID <;> constructor <;> simp [Kernel.start, he]
  unrepeated := by constructor <;> simp [Kernel.start]

/-- Filing depends on a thread's own state, deadline and memberships. -/
theorem Filed.congr {kernel kernel' : Kernel} {thread : ThreadId}
    (filed : kernel.Filed thread) (state : kernel'.state thread = kernel.state thread)
    (ready : thread ∈ kernel'.readyQueue ↔ thread ∈ kernel.readyQueue)
    (blocked : thread ∈ kernel'.blockedList ↔ thread ∈ kernel.blockedList)
    (suspended : thread ∈ kernel'.suspendedList ↔ thread ∈ kernel.suspendedList)
    (sleeping
      : .thread thread ∈ kernel'.sleepQueue
        → .thread thread ∈ kernel.sleepQueue
          ∧ kernel'.deadline (.thread thread) = kernel.deadline (.thread thread))
    : kernel'.Filed thread where
  ready := by rw [ready, state, filed.ready]
  blocked := by rw [blocked, state, filed.blocked]
  suspended := by rw [suspended, state, filed.suspended]
  sleeping := by
    intro sleeps
    obtain ⟨slept, sameDeadline⟩ := sleeping sleeps
    rw [state, sameDeadline]
    exact filed.sleeping slept

theorem Unrepeated.congr {kernel kernel' : Kernel} (unrepeated : kernel.Unrepeated)
    (ready : kernel'.readyQueue = kernel.readyQueue)
    (blocked : kernel'.blockedList = kernel.blockedList)
    (suspended : kernel'.suspendedList = kernel.suspendedList)
    (sleeping : kernel'.sleepQueue = kernel.sleepQueue)
    : kernel'.Unrepeated where
  ready := ready ▸ unrepeated.ready
  blocked := blocked ▸ unrepeated.blocked
  suspended := suspended ▸ unrepeated.suspended
  sleeping := sleeping ▸ unrepeated.sleeping

/-- States, lists, deadlines and the current thread are the same in both kernels. -/
structure SameLists (kernel kernel' : Kernel) : Prop where
  state : kernel'.state = kernel.state
  current : kernel'.currentThread = kernel.currentThread
  ready : kernel'.readyQueue = kernel.readyQueue
  blocked : kernel'.blockedList = kernel.blockedList
  suspended : kernel'.suspendedList = kernel.suspendedList
  sleeping : kernel'.sleepQueue = kernel.sleepQueue
  deadline : kernel'.deadline = kernel.deadline

theorem SameLists.trans {first second third : Kernel} (left : first.SameLists second)
    (right : second.SameLists third)
    : first.SameLists third where
  state := right.state.trans left.state
  current := right.current.trans left.current
  ready := right.ready.trans left.ready
  blocked := right.blocked.trans left.blocked
  suspended := right.suspended.trans left.suspended
  sleeping := right.sleeping.trans left.sleeping
  deadline := right.deadline.trans left.deadline

theorem SameLists.filed {kernel kernel' : Kernel} {thread : ThreadId}
    (he : kernel.SameLists kernel') (filed : kernel.Filed thread)
    : kernel'.Filed thread :=
  filed.congr (by rw [he.state]) (by rw [he.ready]) (by rw [he.blocked])
    (by rw [he.suspended]) (by rw [he.sleeping, he.deadline]; simp)

theorem Consistent.congr {kernel kernel' : Kernel} (hc : kernel.Consistent)
    (he : kernel.SameLists kernel')
    : kernel'.Consistent where
  running := by rw [he.state, he.current]; exact hc.running
  idle := by rw [he.state]; exact hc.idle
  filed thread := he.filed (hc.filed thread)
  unrepeated := hc.unrepeated.congr he.ready he.blocked he.suspended
    he.sleeping

theorem Detached.congr {kernel kernel' : Kernel} {thread : ThreadId}
    (detached : kernel.Detached thread) (he : kernel.SameLists kernel')
    : kernel'.Detached thread where
  notCurrent := he.current ▸ detached.notCurrent
  running := by rw [he.state, he.current]; exact detached.running
  idle := by rw [he.state]; exact detached.idle
  filed other hne := he.filed (detached.filed other hne)
  notReady := he.ready ▸ detached.notReady
  notBlocked := he.blocked ▸ detached.notBlocked
  notSuspended := he.suspended ▸ detached.notSuspended
  unrepeated := detached.unrepeated.congr he.ready he.blocked he.suspended
    he.sleeping

variable {kernel kernel' : Kernel} {thread : ThreadId}

section

variable (hc : kernel.Consistent)
include hc

theorem Consistent.detach (notCurrent : thread ≠ kernel.currentThread)
    (notReady : thread ∉ kernel.readyQueue) (notBlocked : thread ∉ kernel.blockedList)
    (notSuspended : thread ∉ kernel.suspendedList)
    : kernel.Detached thread where
  notCurrent := notCurrent
  running other _ := hc.running other
  idle _ := hc.idle
  filed other _ := hc.filed other
  notReady := notReady
  notBlocked := notBlocked
  notSuspended := notSuspended
  unrepeated := hc.unrepeated

theorem Consistent.ne_current (notRunning : kernel.state thread ≠ .running)
    : thread ≠ kernel.currentThread :=
  fun he => notRunning ((hc.running thread).mpr he)

/-- A sleeping thread is blocked, so a thread in any other state does not sleep. -/
theorem Consistent.awake (notBlocked : kernel.state thread ≠ .blocked)
    : .thread thread ∉ kernel.sleepQueue :=
  fun sleeps => notBlocked ((hc.filed thread).sleeping sleeps).1

theorem Consistent.detach_ready (ready : kernel.state thread = .ready)
    : { kernel with readyQueue := kernel.readyQueue.erase thread }.Detached thread where
  notCurrent := hc.ne_current (by simp [ready])
  running other _ := hc.running other
  idle _ := hc.idle
  filed other hne := (hc.filed other).congr rfl
    (List.mem_erase_of_ne hne) .rfl .rfl fun sleeps => ⟨sleeps, rfl⟩
  notReady := hc.unrepeated.ready.not_mem_erase
  notBlocked := by simp [(hc.filed thread).blocked, ready]
  notSuspended := by simp [(hc.filed thread).suspended, ready]
  unrepeated := {
    hc.unrepeated with
    ready := hc.unrepeated.ready.erase thread
  }

theorem Consistent.detach_blocked (blocked : kernel.state thread = .blocked)
    : { kernel with blockedList := kernel.blockedList.erase thread }.Detached thread where
  notCurrent := hc.ne_current (by simp [blocked])
  running other _ := hc.running other
  idle _ := hc.idle
  filed other hne := (hc.filed other).congr rfl .rfl
    (List.mem_erase_of_ne hne) .rfl fun sleeps => ⟨sleeps, rfl⟩
  notReady := by simp [(hc.filed thread).ready, blocked]
  notBlocked := hc.unrepeated.blocked.not_mem_erase
  notSuspended := by simp [(hc.filed thread).suspended, blocked]
  unrepeated := {
    hc.unrepeated with
    blocked := hc.unrepeated.blocked.erase thread
  }

theorem Consistent.detach_suspended (suspended : kernel.state thread = .suspended)
    : { kernel with suspendedList := kernel.suspendedList.erase thread }.Detached thread where
  notCurrent := hc.ne_current (by simp [suspended])
  running other _ := hc.running other
  idle _ := hc.idle
  filed other hne := (hc.filed other).congr rfl .rfl .rfl
    (List.mem_erase_of_ne hne) fun sleeps => ⟨sleeps, rfl⟩
  notReady := by simp [(hc.filed thread).ready, suspended]
  notBlocked := by simp [(hc.filed thread).blocked, suspended]
  notSuspended := hc.unrepeated.suspended.not_mem_erase
  unrepeated := {
    hc.unrepeated with
    suspended := hc.unrepeated.suspended.erase thread
  }

/-- Ending a sleep never disturbs the filing, which asks only that sleepers are blocked. -/
theorem Consistent.eraseSleeper (suspendable : Suspendable)
    : { kernel with sleepQueue := kernel.sleepQueue.erase suspendable }.Consistent where
  running := hc.running
  idle := hc.idle
  filed other := (hc.filed other).congr rfl .rfl .rfl .rfl
    fun sleeps => ⟨List.mem_of_mem_erase sleeps, rfl⟩
  unrepeated := {
    hc.unrepeated with
    sleeping := hc.unrepeated.sleeping.erase suspendable
  }

end

theorem Detached.setState (detached : kernel.Detached thread) (state : ThreadExecutionState)
    : (kernel.setState thread state).Detached thread where
  notCurrent := detached.notCurrent
  running other hne := by
    simpa [Kernel.setState, hne] using detached.running other hne
  idle hne := by
    simpa [Kernel.setState, hne] using detached.idle hne
  filed other hne := (detached.filed other hne).congr
    (by simp [Kernel.setState, hne]) .rfl .rfl .rfl fun sleeps => ⟨sleeps, rfl⟩
  notReady := detached.notReady
  notBlocked := detached.notBlocked
  notSuspended := detached.notSuspended
  unrepeated := detached.unrepeated.congr rfl rfl rfl rfl

/-- Once the moving thread is filed itself, in a state other than running, the kernel is
consistent. Witness: the current thread is another one, so the running thread stays unique.
-/
theorem OthersFiled.file (others : kernel.OthersFiled thread) (filed : kernel.Filed thread)
    (notRunning : kernel.state thread ≠ .running)
    (idle : thread = IDLE_THREAD_ID → kernel.state thread = .ready)
    : kernel.Consistent where
  running other := by
    by_cases he : other = thread
    · subst he
      exact iff_of_false notRunning others.notCurrent
    · exact others.running other he
  idle := by
    by_cases he : IDLE_THREAD_ID = thread
    · exact Or.inl (he ▸ idle he.symm)
    · exact others.idle he
  filed other := by
    by_cases he : other = thread
    · exact he ▸ filed
    · exact others.filed other he
  unrepeated := others.unrepeated

/-- A detached thread that does not sleep becomes ready. Witness: the state and the list
insertion agree for the thread, and no other membership changes.
-/
theorem Detached.insertToReadyQueue (detached : kernel.Detached thread)
    (awake : .thread thread ∉ kernel.sleepQueue)
    (hi : kernel.insertToReadyQueue thread = .ok kernel')
    : kernel'.Consistent := by
  have marked := detached.setState .ready
  rcases insertToReadyQueue_ok hi with ⟨isIdle, rfl⟩ | ⟨notIdle, -, rfl⟩
  · refine marked.toOthersFiled.file ?_ (by simp [Kernel.setState]) (by simp [Kernel.setState])
    constructor
    · simpa [isIdle] using isIdle ▸ detached.notReady
    · simpa [isIdle] using isIdle ▸ detached.notBlocked
    · simpa [isIdle] using isIdle ▸ detached.notSuspended
    · exact fun sleeps => absurd sleeps awake
  · have others
        : { kernel.setState thread .ready with
            readyQueue := insertPast (kernel.goesBeforeReady thread) thread
              kernel.readyQueue }.OthersFiled thread := {
      notCurrent := detached.notCurrent
      running := marked.running
      idle := marked.idle
      filed := fun other hne => (marked.filed other hne).congr rfl
        (by simp [hne, Kernel.setState]) .rfl .rfl fun sleeps => ⟨sleeps, rfl⟩
      unrepeated := {
        detached.unrepeated with
        ready := nodup_insertPast detached.notReady detached.unrepeated.ready
      }
    }
    refine others.file ?_ (by simp [Kernel.setState]) (fun isIdle => absurd isIdle notIdle)
    constructor
    · simp [Kernel.setState, notIdle]
    · simpa [Kernel.setState] using detached.notBlocked
    · simpa [Kernel.setState] using detached.notSuspended
    · exact fun sleeps => absurd sleeps awake

theorem Detached.insertToBlockedQueue (detached : kernel.Detached thread)
    (sleeping
      : .thread thread ∈ kernel.sleepQueue
        → (kernel.deadline (.thread thread)).isSome = true)
    (hi : kernel.insertToBlockedQueue thread = .ok kernel')
    : kernel'.Consistent := by
  have marked := detached.setState .blocked
  obtain ⟨notIdle, -, rfl⟩ := insertToBlockedQueue_ok hi
  have others
      : { kernel.setState thread .blocked with
          blockedList := insertPast (kernel.goesBeforeBlocked thread) thread
            kernel.blockedList }.OthersFiled thread := {
    notCurrent := detached.notCurrent
    running := marked.running
    idle := marked.idle
    filed := fun other hne => (marked.filed other hne).congr rfl .rfl
      (by simp [hne, Kernel.setState]) .rfl fun sleeps => ⟨sleeps, rfl⟩
    unrepeated := {
      detached.unrepeated with
      blocked := nodup_insertPast detached.notBlocked detached.unrepeated.blocked
    }
  }
  refine others.file ?_ (by simp [Kernel.setState]) (fun isIdle => absurd isIdle notIdle)
  constructor
  · simpa [Kernel.setState] using detached.notReady
  · simp [Kernel.setState, notIdle]
  · simpa [Kernel.setState] using detached.notSuspended
  · exact fun sleeps => ⟨by simp [Kernel.setState], sleeping sleeps⟩

theorem Detached.insertToSuspendedList (detached : kernel.Detached thread)
    (awake : .thread thread ∉ kernel.sleepQueue)
    (hi : kernel.insertToSuspendedList thread = .ok kernel')
    : kernel'.Consistent := by
  have marked := detached.setState .suspended
  obtain ⟨notIdle, -, rfl⟩ := insertToSuspendedList_ok hi
  have others
      : { kernel.setState thread .suspended with
          suspendedList := kernel.suspendedList ++ [thread] }.OthersFiled thread := {
    notCurrent := detached.notCurrent
    running := marked.running
    idle := marked.idle
    filed := fun other hne => (marked.filed other hne).congr rfl .rfl .rfl
      (by simp [hne, Kernel.setState]) fun sleeps => ⟨sleeps, rfl⟩
    unrepeated := {
      detached.unrepeated with
      suspended := by
        refine List.nodup_append.mpr ⟨detached.unrepeated.suspended, by simp, ?_⟩
        intro hm found added addedFound
        rw [List.mem_singleton.mp addedFound]
        exact fun he => detached.notSuspended (he ▸ found)
    }
  }
  refine others.file ?_ (by simp [Kernel.setState]) (fun isIdle => absurd isIdle notIdle)
  constructor
  · simpa [Kernel.setState] using detached.notReady
  · simpa [Kernel.setState] using detached.notBlocked
  · simp [Kernel.setState, notIdle]
  · exact fun sleeps => absurd sleeps awake

end Scars.Kernel
