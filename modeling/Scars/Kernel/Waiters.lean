import Scars.Kernel.Invariants

/-! Threads that wait for a notification.
A thread in a wait queue is blocked and has no deadline, so nothing but a notification wakes
it, and it runs no code until then.
-/

namespace Scars.Kernel

open Runs OrderedInsert Function

/-- The thread is blocked and no deadline will wake it. -/
def Parked (kernel : Kernel) (thread : ThreadId) : Prop :=
  kernel.state thread = .blocked ∧ kernel.deadline (.thread thread) = none

/-- A waiter's link names the one queue it is in. Waiters are threads, and they are parked. -/
structure WaitersFiled (kernel : Kernel) : Prop where
  owner
    : ∀ queue waiter, waiter ∈ kernel.waitQueue queue ↔ kernel.waitOwner waiter = some queue
  unrepeated : ∀ queue, (kernel.waitQueue queue).Nodup
  threads : ∀ handler, kernel.waitOwner (.interrupt handler) = none
  parked
    : ∀ thread queue, kernel.waitOwner (.thread thread) = some queue → kernel.Parked thread

/-- Wait queues stay as they are, and so do the threads in them. -/
structure Spares (kernel kernel' : Kernel) : Prop where
  waitQueue : kernel'.waitQueue = kernel.waitQueue
  waitOwner : kernel'.waitOwner = kernel.waitOwner
  parked
    : ∀ thread,
        kernel.waitOwner (.thread thread) ≠ none
        → kernel.Parked thread
        → kernel'.Parked thread

/-- No wait queue holds the thread as a waiter. -/
def Unwaited (kernel : Kernel) (thread : ThreadId) : Prop :=
  kernel.waitOwner (.thread thread) = none ∨ ¬ kernel.Parked thread

variable {kernel kernel' : Kernel} {thread : ThreadId}

theorem start_waitersFiled (program : Program) : (Kernel.start program).WaitersFiled := by
  constructor <;> simp [Kernel.start]

theorem Spares.trans {first second third : Kernel} (left : first.Spares second)
    (right : second.Spares third)
    : first.Spares third where
  waitQueue := right.waitQueue.trans left.waitQueue
  waitOwner := right.waitOwner.trans left.waitOwner
  parked thread waits parked :=
    right.parked thread (left.waitOwner ▸ waits) (left.parked thread waits parked)

theorem Spares.touch (free : kernel.Unwaited thread)
    (waitQueue : kernel'.waitQueue = kernel.waitQueue)
    (waitOwner : kernel'.waitOwner = kernel.waitOwner)
    (others
      : ∀ other,
          other ≠ thread
          → kernel'.state other = kernel.state other
            ∧ kernel'.deadline (.thread other) = kernel.deadline (.thread other))
    : kernel.Spares kernel' where
  waitQueue := waitQueue
  waitOwner := waitOwner
  parked other waits parked := by
    have hne : other ≠ thread := by
      rintro rfl
      exact free.elim waits fun notParked => notParked parked
    obtain ⟨state, deadline⟩ := others other hne
    simpa only [Parked, state, deadline] using parked

theorem Spares.of_eq
    (he
      : (kernel'.waitQueue, kernel'.waitOwner, kernel'.state, kernel'.deadline ∘ .thread)
        = (kernel.waitQueue, kernel.waitOwner, kernel.state, kernel.deadline ∘ .thread))
    : kernel.Spares kernel' := by
  obtain ⟨waitQueue, waitOwner, state, deadline⟩ := by simpa only [Prod.mk.injEq] using he
  refine ⟨waitQueue, waitOwner, fun thread _ parked => ?_⟩
  have deadline : kernel'.deadline (.thread thread) = kernel.deadline (.thread thread) :=
    congrFun deadline thread
  simpa only [Parked, state, deadline] using parked

theorem Adjusts.spares (adjusts : kernel.Adjusts kernel') : kernel.Spares kernel' := by
  obtain ⟨_, _, _, _, _, rfl⟩ := adjusts
  exact .of_eq rfl

theorem Unwaited.of_state (notBlocked : kernel.state thread ≠ .blocked)
    : kernel.Unwaited thread :=
  Or.inr fun parked => notBlocked parked.1

theorem WaitersFiled.spares (filed : kernel.WaitersFiled) (spares : kernel.Spares kernel')
    : kernel'.WaitersFiled where
  owner := by rw [spares.waitQueue, spares.waitOwner]; exact filed.owner
  unrepeated := by rw [spares.waitQueue]; exact filed.unrepeated
  threads := by rw [spares.waitOwner]; exact filed.threads
  parked thread queue waits := by
    rw [spares.waitOwner] at waits
    exact spares.parked thread (by simp [waits]) (filed.parked thread queue waits)

theorem spares_insertToReadyQueue (free : kernel.Unwaited thread)
    (hi : kernel.insertToReadyQueue thread = .ok kernel')
    : kernel.Spares kernel' := by
  have marked (other : ThreadId) (hne : other ≠ thread)
      : (kernel.setState thread .ready).state other = kernel.state other :=
    update_of_ne hne _ _
  rcases insertToReadyQueue_ok hi with ⟨-, rfl⟩ | ⟨-, -, rfl⟩
  · exact .touch free rfl rfl fun other hne => ⟨marked other hne, rfl⟩
  · exact .touch free rfl rfl fun other hne => ⟨marked other hne, rfl⟩

theorem spares_insertToSuspendedList (free : kernel.Unwaited thread)
    (hi : kernel.insertToSuspendedList thread = .ok kernel')
    : kernel.Spares kernel' := by
  obtain ⟨-, -, rfl⟩ := insertToSuspendedList_ok hi
  exact .touch free rfl rfl fun other hne => ⟨update_of_ne hne _ _, rfl⟩

theorem spares_blockThread (free : kernel.Unwaited thread) {timeout : Option Instant}
    (blocks : kernel.blockThread thread timeout = .ok kernel')
    : kernel.Spares kernel' := by
  have dated (other : ThreadId) (hne : other ≠ thread)
      : (kernel.setDeadline (.thread thread) timeout).deadline (.thread other)
        = kernel.deadline (.thread other) :=
    update_of_ne (by simpa using hne) _ _
  obtain ⟨-, _, _, rfl⟩ := blockThread_ok blocks
  exact .touch free rfl rfl fun other hne => ⟨update_of_ne hne _ _, dated other hne⟩

theorem spares_switchThread {next : ThreadId} (freeNext : kernel.Unwaited next)
    (freeCurrent : kernel.Unwaited kernel.currentThread)
    : kernel.Spares (kernel.switchThread next).2 := by
  have started : kernel.Spares (kernel.setState next .running) :=
    .touch freeNext rfl rfl fun other hne => ⟨update_of_ne hne _ _, rfl⟩
  have stillFree : (kernel.setState next .running).Unwaited kernel.currentThread := by
    rcases eq_or_ne kernel.currentThread next with he | hne
    · exact .of_state (by simp [setState, he])
    · refine freeCurrent.imp id fun notParked parked => notParked ?_
      simpa only [Parked, setState, update_of_ne hne] using parked
  exact started.trans (.touch stillFree rfl rfl
    fun other hne => ⟨update_of_ne hne _ _, rfl⟩)

theorem Consistent.unwaited_current (hc : kernel.Consistent)
    : kernel.Unwaited kernel.currentThread := by
  have runs := (hc.running kernel.currentThread).mpr rfl
  exact .of_state (by simp [runs])

theorem Consistent.unwaited_ready (hc : kernel.Consistent) (ready : thread ∈ kernel.readyQueue)
    : kernel.Unwaited thread := by
  have filed := (hc.filed thread).ready.mp ready
  exact .of_state (by simp [filed.1])

theorem Consistent.spares_handOver (hc : kernel.Consistent)
    : kernel.Spares kernel.handOver.2 := by
  have taken : kernel.Spares kernel.takeNextAboveLocks.2
      ∧ kernel.takeNextAboveLocks.2.Unwaited kernel.takeNextAboveLocks.1
      ∧ kernel.takeNextAboveLocks.2.Unwaited kernel.takeNextAboveLocks.2.currentThread := by
    rcases kernel.takeNextAboveLocks_cases with ⟨head, rest, hq, -, taken⟩ | ⟨-, taken⟩
    · rw [taken]
      have ready : kernel.Unwaited head := hc.unwaited_ready (by simp [hq])
      exact ⟨.of_eq rfl, ready, hc.unwaited_current⟩
    · rw [taken]
      refine ⟨.of_eq rfl, .of_state ?_, hc.unwaited_current⟩
      rcases hc.idle with ready | running
      · simp [ready]
      · simp [running]
  exact taken.1.trans (spares_switchThread taken.2.1 taken.2.2)

/-- The thread that handed over is ready for a moment, until it is blocked. -/
theorem unwaited_handOver : kernel.handOver.2.Unwaited kernel.currentThread := by
  refine .of_state ?_
  have previous := handOver_fst kernel
  change (update _ kernel.takeNextAboveLocks.2.currentThread _) _ ≠ _
  rw [takeNextAboveLocks_current, update_self]
  simp

theorem spares_wakeupThread (free : kernel.Unwaited thread)
    (woken : kernel.wakeupThread thread = .ok kernel')
    : kernel.Spares kernel' := by
  obtain ⟨-, ⟨-, -, hi⟩ | ⟨-, rfl⟩⟩ := wakeupThread_ok woken
  · have signalled : kernel.Spares ((kernel.setWakeupEvent thread).unblocked thread) :=
      .of_eq rfl
    exact signalled.trans (spares_insertToReadyQueue free hi)
  · exact .of_eq rfl

theorem Consistent.spares_wakeupHead (hc : kernel.Consistent) {fuel : Nat}
    {head : Suspendable} {rest : List Suspendable} (hq : kernel.sleepQueue = head :: rest)
    (woken : { kernel with sleepQueue := rest }.wakeupSuspendable fuel head = .ok kernel')
    : kernel.Spares kernel' := by
  have popped : kernel.Spares { kernel with sleepQueue := rest } :=
    .of_eq rfl
  cases head with
  | interrupt handler =>
      obtain ⟨polls, rfl⟩ := setPendingExecutorPoll_ok woken
      exact popped.trans (.of_eq rfl)
  | thread sleeper =>
      refine popped.trans (spares_wakeupThread (Or.inr fun parked => ?_) woken)
      have dated := ((hc.filed sleeper).sleeping (by simp [hq])).2
      have undated : kernel.deadline (.thread sleeper) = none := parked.2
      simp [undated] at dated

theorem Consistent.spares_wakeDue (hc : kernel.Consistent) {fuel rounds : Nat}
    {now : Instant} (woken : Kernel.wakeDue fuel now rounds kernel = .ok kernel')
    : kernel.Spares kernel' := by
  have both : kernel'.Consistent ∧ kernel.Spares kernel' := by
    refine wakeDue_induction (fun state => state.Consistent ∧ kernel.Spares state) ?_
      ?_ ⟨hc, .of_eq rfl⟩ woken
    · intro state alarm invariant
      exact ⟨invariant.1.congr (by constructor <;> rfl),
        invariant.2.trans (.of_eq rfl)⟩
    · intro state head rest after invariant hq woke
      exact ⟨invariant.1.wakeupHead hq woke,
        invariant.2.trans (invariant.1.spares_wakeupHead hq woke)⟩
  exact both.2

theorem spares_resumeThread (free : kernel.Unwaited thread)
    (resumed : kernel.resumeThread thread = .ok kernel')
    : kernel.Spares kernel' := by
  obtain ⟨moved, rfl, moves⟩ := resumeThread_ok resumed
  refine Spares.trans ?_ adjusts_requestIfHigher.spares
  rcases moves with ⟨-, -, hi⟩ | ⟨-, -, hi⟩ | ⟨-, hi⟩ | ⟨-, rfl⟩
  · rw [leaveSleepQueue_eq] at hi
    refine Spares.trans ?_ (spares_insertToReadyQueue ?_ hi)
    · exact .of_eq rfl
    · exact free
  · refine Spares.trans ?_ (spares_insertToReadyQueue ?_ hi)
    · exact .of_eq rfl
    · exact free
  · exact spares_insertToReadyQueue free hi
  · exact .of_eq rfl

end Scars.Kernel
