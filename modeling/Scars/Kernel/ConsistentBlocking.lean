import Scars.Kernel.Consistency

/-! Blocking the current thread keeps thread states and execution lists in agreement.
-/

namespace Scars.Kernel

open Runs OrderedInsert

variable {kernel kernel' : Kernel} {thread : ThreadId} {queue : WaitQueueId}
  {deadline : Option Instant} {ceiling : Priority}

theorem Adjusts.sameLists (adjusts : kernel.Adjusts kernel') : kernel.SameLists kernel' := by
  obtain ⟨_, _, _, _, _, rfl⟩ := adjusts
  constructor <;> rfl

theorem sameLists_reprogramAlarm : kernel.SameLists kernel.reprogramAlarm := by
  rw [reprogramAlarm_eq]
  constructor <;> rfl

theorem sameLists_setEvents (thread : ThreadId) (events : EventSet)
    : kernel.SameLists (kernel.setEvents thread events) := by
  constructor <;> rfl

theorem sameLists_setPendingExecutorPoll {fuel : Nat} {handler : HandlerId}
    (pushed : kernel.setPendingExecutorPoll fuel handler = .ok kernel')
    : kernel.SameLists kernel' := by
  obtain ⟨polls, rfl⟩ := setPendingExecutorPoll_ok pushed
  constructor <;> rfl

theorem sameLists_insertToWaitQueue {suspendable : Suspendable}
    (hi : kernel.insertToWaitQueue queue suspendable = .ok kernel')
    : kernel.SameLists kernel' := by
  unfold insertToWaitQueue at hi
  split at hi
  · cases hi
  · cases hi; constructor <;> rfl

/-- Switching to a detached thread that does not sleep detaches the previous one. Witness:
the previous thread was running, hence filed nowhere; the new one takes over its role.
-/
theorem Detached.switchThread {next : ThreadId} (detached : kernel.Detached next)
    (awake : .thread next ∉ kernel.sleepQueue)
    : (kernel.switchThread next).2.Detached kernel.currentThread := by
  have hne : kernel.currentThread ≠ next := detached.notCurrent.symm
  have previousFiled := detached.filed kernel.currentThread hne
  have previousRuns := (detached.running kernel.currentThread hne).mpr rfl
  constructor
  case notReady => exact fun found => by simpa [previousRuns] using previousFiled.ready.mp found
  case notBlocked =>
    exact fun found => by simpa [previousRuns] using previousFiled.blocked.mp found
  case notSuspended =>
    exact fun found => by simpa [previousRuns] using previousFiled.suspended.mp found
  constructor
  case notCurrent => exact hne
  case running =>
    intro other notPrevious
    by_cases isNext : other = next
    · subst isNext
      simp [Kernel.switchThread, Kernel.setState, hne.symm]
    · have runs := detached.running other isNext
      simp [Kernel.switchThread, Kernel.setState, notPrevious, isNext, runs]
  case idle =>
    intro notPrevious
    by_cases isNext : IDLE_THREAD_ID = next
    · subst isNext
      simp [Kernel.switchThread, Kernel.setState, notPrevious]
    · simpa [Kernel.switchThread, Kernel.setState, notPrevious, isNext]
        using detached.idle isNext
  case filed =>
    intro other notPrevious
    by_cases isNext : other = next
    · subst isNext
      constructor
      · simpa [Kernel.switchThread, Kernel.setState, notPrevious] using detached.notReady
      · simpa [Kernel.switchThread, Kernel.setState, notPrevious] using detached.notBlocked
      · simpa [Kernel.switchThread, Kernel.setState, notPrevious] using detached.notSuspended
      · exact fun sleeps => absurd sleeps awake
    · refine (detached.filed other isNext).congr ?_ .rfl .rfl .rfl fun sleeps => ⟨sleeps, rfl⟩
      simp [Kernel.switchThread, Kernel.setState, notPrevious, isNext]
  case unrepeated => exact detached.unrepeated.congr rfl rfl rfl rfl

theorem Consistent.detach_head (hc : kernel.Consistent) {rest : List ThreadId}
    (hq : kernel.readyQueue = thread :: rest)
    : { kernel with readyQueue := rest }.Detached thread
      ∧ .thread thread ∉ kernel.sleepQueue := by
  have ready := ((hc.filed thread).ready.mp (by simp [hq])).1
  have detached := hc.detach_ready ready
  rw [hq, List.erase_cons_head] at detached
  exact ⟨detached, hc.awake (by simp [ready])⟩

/-- The thread that takes over from a blocking thread is detached when it is chosen. -/
theorem Consistent.takeNextAboveLocks (hc : kernel.Consistent)
    (notIdle : kernel.currentThread ≠ IDLE_THREAD_ID)
    : kernel.takeNextAboveLocks.2.Detached kernel.takeNextAboveLocks.1
      ∧ .thread kernel.takeNextAboveLocks.1 ∉ kernel.takeNextAboveLocks.2.sleepQueue := by
  rcases kernel.takeNextAboveLocks_cases with ⟨head, rest, hq, -, taken⟩ | ⟨-, taken⟩
  · rw [taken]
    exact hc.detach_head hq
  · rw [taken]
    have filed := hc.filed IDLE_THREAD_ID
    refine ⟨hc.detach notIdle.symm ?_ ?_ ?_, hc.awake ?_⟩
    · simp [filed.ready]
    · simp [filed.blocked]
    · simp [filed.suspended]
    · rcases hc.idle with ready | running
      · simp [ready]
      · simp [running]

theorem Consistent.handOver (hc : kernel.Consistent)
    (notIdle : kernel.currentThread ≠ IDLE_THREAD_ID)
    : kernel.handOver.2.Detached kernel.currentThread
      ∧ .thread kernel.currentThread ∉ kernel.handOver.2.sleepQueue := by
  obtain ⟨detached, awake⟩ := hc.takeNextAboveLocks notIdle
  refine ⟨takeNextAboveLocks_current kernel ▸ detached.switchThread awake, ?_⟩
  have runs := (hc.running kernel.currentThread).mpr rfl
  change _ ∉ kernel.takeNextAboveLocks.2.sleepQueue
  rw [takeNextAboveLocks_sleepQueue]
  exact hc.awake (by simp [runs])

theorem Detached.setDeadline (detached : kernel.Detached thread) (deadline : Option Instant)
    : (kernel.setDeadline (.thread thread) deadline).Detached thread where
  notCurrent := detached.notCurrent
  running := detached.running
  idle := detached.idle
  filed other hne := (detached.filed other hne).congr rfl .rfl .rfl .rfl
    fun sleeps => ⟨sleeps, by simp [Kernel.setDeadline, hne]⟩
  notReady := detached.notReady
  notBlocked := detached.notBlocked
  notSuspended := detached.notSuspended
  unrepeated := detached.unrepeated.congr rfl rfl rfl rfl

theorem Detached.withSleeper (detached : kernel.Detached thread)
    (awake : .thread thread ∉ kernel.sleepQueue)
    : (kernel.withSleeper (.thread thread)).Detached thread where
  notCurrent := detached.notCurrent
  running := detached.running
  idle := detached.idle
  filed other hne := (detached.filed other hne).congr rfl .rfl .rfl .rfl
    fun sleeps => ⟨by simpa [Kernel.withSleeper, hne] using sleeps, rfl⟩
  notReady := detached.notReady
  notBlocked := detached.notBlocked
  notSuspended := detached.notSuspended
  unrepeated := {
    detached.unrepeated with
    sleeping := nodup_insertPast awake detached.unrepeated.sleeping
  }

/-- Blocking a detached thread that does not sleep files it, with or without a deadline. -/
theorem Detached.blockThread (detached : kernel.Detached thread)
    (awake : .thread thread ∉ kernel.sleepQueue) {timeout : Option Instant}
    (blocks : kernel.blockThread thread timeout = .ok kernel')
    : kernel'.Consistent := by
  cases timeout with
  | none =>
      exact (detached.setDeadline none).insertToBlockedQueue
        (fun sleeps => absurd sleeps awake) blocks
  | some deadline =>
      obtain ⟨-, -, hi⟩ := blockThread_some blocks
      have timed := (detached.setDeadline (some deadline)).setState .blocked
      have sleeper := (timed.withSleeper awake).congr sameLists_reprogramAlarm
      refine sleeper.insertToBlockedQueue (fun _ => ?_) hi
      rw [sameLists_reprogramAlarm.deadline]
      simp [Kernel.withSleeper, Kernel.setState, Kernel.setDeadline]

theorem Consistent.delayThreadUntil (hc : kernel.Consistent) {wakeupTime : Instant}
    (delayed : kernel.delayThreadUntil wakeupTime = .ok kernel')
    : kernel'.Consistent := by
  obtain ⟨notIdle, blocks⟩ := delayThreadUntil_ok delayed
  obtain ⟨detached, awake⟩ := hc.handOver notIdle
  exact detached.blockThread awake blocks

/-- Between the hand-over and the blocking only the wait queue and the priorities of the
syscall handler change.
-/
theorem sameLists_enqueued {enqueued : Kernel}
    (hi
      : (kernel.raisedForWait ceiling).2.insertToWaitQueue queue
        (.thread kernel.currentThread) = .ok enqueued)
    : kernel.handOver.2.SameLists (enqueued.setHandlerNesting SYSCALL_INTERRUPT_HANDLER
        (kernel.raisedForWait ceiling).1) := by
  have raised : kernel.handOver.2.SameLists (kernel.raisedForWait ceiling).2 :=
    (adjusts_setHandlerPriorities _ _).sameLists
  exact (raised.trans (sameLists_insertToWaitQueue hi)).trans
    (adjusts_setHandlerPriorities _ _).sameLists

theorem Consistent.waitCurrentThread (hc : kernel.Consistent)
    (waited : kernel.waitCurrentThread queue ceiling = .ok kernel')
    : kernel'.Consistent := by
  obtain ⟨notIdle, enqueued, hi, blocks⟩ := waitCurrentThread_ok waited
  obtain ⟨detached, awake⟩ := hc.handOver notIdle
  have restored := sameLists_enqueued hi
  exact (detached.congr restored).blockThread (restored.sleeping ▸ awake) blocks

theorem Consistent.blockUnlessReceived (hc : kernel.Consistent) {events received : Events}
    (notIdle : kernel.currentThread ≠ IDLE_THREAD_ID)
    (blocks : kernel.blockUnlessReceived events deadline received = .ok kernel')
    : kernel'.Consistent := by
  rcases blockUnlessReceived_ok blocks with ⟨-, blocks⟩ | ⟨-, rfl⟩
  · obtain ⟨detached, awake⟩ := hc.handOver notIdle
    exact detached.blockThread awake blocks
  · exact hc

theorem sameLists_requested (events : Events)
    : kernel.SameLists (kernel.requested events).2 := by
  constructor <;> rfl

theorem Consistent.waitCurrentThreadEvent (hc : kernel.Consistent) {events : Events}
    {result : Events × Kernel} (waited : kernel.waitCurrentThreadEvent events deadline = .ok result)
    : result.2.Consistent := by
  obtain ⟨notIdle, -, blocks⟩ := waitCurrentThreadEvent_ok waited
  exact (hc.congr (sameLists_requested events)).blockUnlessReceived notIdle blocks

end Scars.Kernel
