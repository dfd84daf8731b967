import Scars.Kernel.ConsistentBlocking
import Scars.Kernel.Operations

/-! Every operation keeps thread states and execution lists in agreement, and so does every
run.
-/

namespace Scars.Kernel

open Runs OrderedInsert

variable {kernel kernel' : Kernel} {thread : ThreadId} {fuel : Nat} {now : Instant}
  {handler : HandlerId}

/-- The operation works on locks or on the pending reschedule, and on no list. -/
def Adjusting : Op → Prop
  | .lock _ | .unlock _ | .enterSection _ | .leaveSection | .condReschedule => True
  | _ => False

theorem adjusts_perform {op : Op} (hp : kernel.perform fuel op = .ok kernel')
    (adjusting : Adjusting op)
    : kernel.Adjusts kernel' := by
  cases op with
  | lock lock => exact adjusts_lockScoped hp
  | unlock lock => exact adjusts_unlockScoped hp
  | enterSection ceiling => cases hp; exact adjusts_enterSection ceiling
  | leaveSection => exact adjusts_leaveSection hp
  | condReschedule => cases hp; exact adjusts_condReschedule
  | _ => exact adjusting.elim

section

variable (hc : kernel.Consistent)
include hc

/-- Waking a thread that left the sleep queue moves it from the blocked to the ready
threads.
-/
theorem Consistent.wakeupThread (awake : .thread thread ∉ kernel.sleepQueue)
    (woken : kernel.wakeupThread thread = .ok kernel')
    : kernel'.Consistent := by
  obtain ⟨-, ⟨blocked, -, hi⟩ | ⟨-, rfl⟩⟩ := wakeupThread_ok woken
  · have signalled : (kernel.setWakeupEvent thread).Consistent :=
      hc.congr (sameLists_setEvents _ _)
    exact (signalled.detach_blocked blocked).insertToReadyQueue awake hi
  · exact hc

theorem Consistent.wakeupSuspendable {suspendable : Suspendable}
    (awake : suspendable ∉ kernel.sleepQueue)
    (woken : kernel.wakeupSuspendable fuel suspendable = .ok kernel')
    : kernel'.Consistent := by
  cases suspendable with
  | thread thread => exact hc.wakeupThread awake woken
  | interrupt handler => exact hc.congr (sameLists_setPendingExecutorPoll woken)

theorem Consistent.wakeupHead {head : Suspendable} {rest : List Suspendable}
    (hq : kernel.sleepQueue = head :: rest)
    (woken : { kernel with sleepQueue := rest }.wakeupSuspendable fuel head = .ok kernel')
    : kernel'.Consistent := by
  have popped := hc.eraseSleeper head
  rw [hq, List.erase_cons_head] at popped
  have unique := hc.unrepeated.sleeping
  rw [hq] at unique
  exact popped.wakeupSuspendable (List.nodup_cons.mp unique).1 woken

theorem Consistent.wakeDue {rounds fuel : Nat}
    (woken : Kernel.wakeDue fuel now rounds kernel = .ok kernel')
    : kernel'.Consistent := by
  refine wakeDue_induction Consistent ?_ ?_ hc woken
  · exact fun kernel alarm hc => hc.congr (by constructor <;> rfl)
  · exact fun kernel head rest after hc hq woke =>
      hc.wakeupHead hq woke

theorem Consistent.resumeThread (resumed : kernel.resumeThread thread = .ok kernel')
    : kernel'.Consistent := by
  have signalled : (kernel.setResumeEvent thread).Consistent :=
    hc.congr (sameLists_setEvents _ _)
  obtain ⟨moved, rfl, moves⟩ := resumeThread_ok resumed
  refine Consistent.congr ?_ adjusts_requestIfHigher.sameLists
  rcases moves with ⟨blocked, -, hi⟩ | ⟨suspended, -, hi⟩ | ⟨started, hi⟩
    | ⟨-, rfl⟩
  · rw [leaveSleepQueue_eq] at hi
    have awake := signalled.eraseSleeper (.thread thread)
    exact (awake.detach_blocked blocked).insertToReadyQueue
      signalled.unrepeated.sleeping.not_mem_erase hi
  · exact (signalled.detach_suspended suspended).insertToReadyQueue
      (signalled.awake (by simp [setResumeEvent, setEvents, suspended])) hi
  · have filed := hc.filed thread
    refine (hc.detach ?_ ?_ ?_ ?_).insertToReadyQueue ?_ hi
    · exact hc.ne_current (by simp [started])
    · simp [filed.ready, started]
    · simp [filed.blocked, started]
    · simp [filed.suspended, started]
    · exact hc.awake (by simp [started])
  · exact hc

/-- A created thread may be marked as started: neither state is filed. -/
theorem Consistent.markStarted (created : kernel.state thread = .created)
    : (kernel.setState thread .started).Consistent := by
  have filed := hc.filed thread
  have notIdle : thread ≠ IDLE_THREAD_ID := by
    rintro rfl
    simpa [created] using hc.idle
  have notReady : thread ∉ kernel.readyQueue := by simp [filed.ready, created]
  have notBlocked : thread ∉ kernel.blockedList := by simp [filed.blocked, created]
  have notSuspended : thread ∉ kernel.suspendedList := by simp [filed.suspended, created]
  have awake : .thread thread ∉ kernel.sleepQueue := hc.awake (by simp [created])
  have detached := hc.detach (hc.ne_current (by simp [created])) notReady
    notBlocked notSuspended
  refine (detached.setState .started).toOthersFiled.file ?_ (by simp [Kernel.setState])
    (fun isIdle => absurd isIdle notIdle)
  constructor
  · simpa [Kernel.setState] using notReady
  · simpa [Kernel.setState] using notBlocked
  · simpa [Kernel.setState] using notSuspended
  · exact fun sleeps => absurd sleeps awake

theorem Consistent.startThread (started : kernel.startThread thread = .ok kernel')
    : kernel'.Consistent := by
  unfold Kernel.startThread at started
  split at started
  · cases started
  next created => exact (hc.markStarted (not_ne_iff.mp created)).resumeThread started

/-- Suspending files a ready, running or started thread as suspended. A blocked thread is
still linked in the blocked list, so suspending it faults.
-/
theorem Consistent.suspendThread {maybeThread : Option ThreadId}
    (suspended : kernel.suspendThread maybeThread = .ok kernel')
    : kernel'.Consistent := by
  unfold Kernel.suspendThread at suspended
  dsimp only at suspended
  generalize maybeThread.getD kernel.currentThread = thread at suspended
  have filed := hc.filed thread
  split at suspended
  next ready =>
    obtain ⟨removed, removes, hi⟩ := bind_ok.mp suspended
    obtain ⟨-, rfl⟩ := removeFromReadyQueue_ok removes
    exact (hc.detach_ready ready).insertToSuspendedList
      (hc.awake (by simp [ready])) hi
  next running =>
    rw [handOver_fst] at suspended
    obtain ⟨notIdle, -, -⟩ := insertToSuspendedList_ok suspended
    obtain ⟨detached, awake⟩ := hc.handOver notIdle
    exact detached.insertToSuspendedList awake suspended
  next blocked =>
    obtain ⟨notIdle, free, -⟩ := insertToSuspendedList_ok suspended
    have notBlocked := (inExecList_eq_false.mp free).2.1
    exact absurd (filed.blocked.mpr ⟨blocked, notIdle⟩) notBlocked
  next => cases suspended; exact hc
  next => cases suspended
  next started =>
    refine (hc.detach ?_ ?_ ?_ ?_).insertToSuspendedList ?_ suspended
    · exact hc.ne_current (by simp [started])
    · simp [filed.ready, started]
    · simp [filed.blocked, started]
    · simp [filed.suspended, started]
    · exact hc.awake (by simp [started])

theorem Consistent.switchToNext {kind : Nat} (switched : kernel.switchToNext kind = .ok kernel')
    : kernel'.Consistent := by
  rcases switchToNext_ok switched with
    ⟨-, rfl⟩ | ⟨head, rest, hq, -, ⟨-, hi⟩ | ⟨he, -⟩⟩
  · exact hc
  · obtain ⟨detached, awake⟩ := hc.detach_head hq
    have runs := (hc.running kernel.currentThread).mpr rfl
    exact (detached.switchThread awake).insertToReadyQueue
      (hc.awake (by simp [runs])) hi
  · -- the running thread is not in the ready queue
    have ready := ((hc.filed head).ready.mp (by simp [hq])).1
    exact absurd he (hc.ne_current (by simp [ready]))

theorem Consistent.reschedule {fuel kind : Nat}
    (rescheduled : kernel.reschedule fuel kind now = .ok kernel')
    : kernel'.Consistent := by
  obtain ⟨awake, woken, switched⟩ := bind_ok.mp rescheduled
  exact (hc.wakeDue woken).switchToNext switched

theorem Consistent.executePendingReschedule
    (executed : kernel.executePendingReschedule fuel now = .ok kernel')
    : kernel'.Consistent := by
  have cleared
      : { kernel with pendingRescheduleKind := RESCHEDULE_KIND_NONE }.Consistent :=
    hc.congr (by constructor <;> rfl)
  unfold Kernel.executePendingReschedule at executed
  dsimp only at executed
  split at executed
  · cases executed; exact cleared
  · exact cleared.reschedule executed

theorem Consistent.notifyNext {queue : WaitQueueId}
    (notified : kernel.notifyNext queue = .ok kernel')
    : kernel'.Consistent := by
  obtain ⟨waitQueue, waitOwner, rfl | ⟨thread, resumed⟩⟩ := notifyNext_ok notified
  · exact hc.congr (by constructor <;> rfl)
  · exact (hc.congr (by constructor <;> rfl)).resumeThread resumed

theorem Consistent.sendEvents {events : Events}
    (sent : kernel.sendEvents thread events = .ok kernel')
    : kernel'.Consistent := by
  obtain ⟨stored, rfl | resumed⟩ := sendEvents_ok sent
  · exact hc.congr (by constructor <;> rfl)
  · exact (hc.congr (by constructor <;> rfl)).resumeThread resumed

/-- The deadline and the sleep of an interrupt handler concern no thread. -/
theorem Consistent.scheduleInterruptWakeup {wakeupTime : Instant}
    (scheduled
      : (kernel.setDeadline (.interrupt handler) (some wakeupTime)).scheduleInterruptWakeup
        handler = .ok kernel')
    : kernel'.Consistent := by
  have dated : (kernel.setDeadline (.interrupt handler) (some wakeupTime)).Consistent := {
    running := hc.running
    idle := hc.idle
    filed := fun thread => (hc.filed thread).congr rfl .rfl .rfl .rfl
      fun sleeps => ⟨sleeps, by simp [setDeadline]⟩
    unrepeated := hc.unrepeated.congr rfl rfl rfl rfl
  }
  obtain ⟨absent, alarm, rfl⟩ := scheduleInterruptWakeup_ok scheduled
  have awake := dated.eraseSleeper (.interrupt handler)
  exact {
    running := awake.running
    idle := awake.idle
    filed := fun thread => (awake.filed thread).congr rfl .rfl .rfl .rfl
      fun sleeps => ⟨by simpa [withSleeper] using sleeps, rfl⟩
    unrepeated := {
      awake.unrepeated with
      sleeping := nodup_insertPast absent awake.unrepeated.sleeping
    }
  }

theorem Consistent.resumeInterrupt (resumed : kernel.resumeInterrupt fuel handler = .ok kernel')
    : kernel'.Consistent := by
  obtain ⟨polls, rfl⟩ := resumeInterrupt_ok resumed
  exact (hc.eraseSleeper _).congr (by constructor <;> rfl)

theorem Consistent.wakeupNext (woken : kernel.wakeupNext fuel = .ok kernel')
    : kernel'.Consistent := by
  unfold Kernel.wakeupNext at woken
  split at woken
  · cases woken; exact hc
  next hq => exact hc.wakeupHead hq woken

/-- Every operation keeps states and lists in agreement. -/
theorem Consistent.perform {op : Op} (hp : kernel.perform fuel op = .ok kernel')
    : kernel'.Consistent := by
  cases op with
  | start thread => exact hc.startThread hp
  | resume thread => exact hc.resumeThread hp
  | suspend maybeThread => exact hc.suspendThread hp
  | wakeupNext => exact hc.wakeupNext hp
  | reschedule kind now => exact hc.reschedule hp
  | executePendingReschedule now => exact hc.executePendingReschedule hp
  | wakeupScheduler | yieldCurrentThread => cases hp; exact hc.congr (by constructor <;> rfl)
  | delayUntil wakeupTime => exact hc.delayThreadUntil hp
  | wait queue ceiling => exact hc.waitCurrentThread hp
  | waitEvent events deadline =>
      obtain ⟨result, waited, rfl⟩ := bind_pure_ok.mp hp
      exact hc.waitCurrentThreadEvent waited
  | lock _ | unlock _ | enterSection _ | leaveSection | condReschedule =>
      exact hc.congr (adjusts_perform hp trivial).sameLists
  | notifyNext queue => exact hc.notifyNext hp
  | sendEvents thread events => exact hc.sendEvents hp
  | scheduleInterruptWakeup handler wakeupTime =>
      exact hc.scheduleInterruptWakeup hp
  | resumeInterrupt handler => exact hc.resumeInterrupt hp

end

/-- In a reached kernel states and lists agree, whichever operations the run permits. -/
theorem Reached.consistent {program : Program} {permitted : Kernel → Op → Prop}
    (reached : Reached fuel program permitted kernel)
    : kernel.Consistent :=
  reached.invariant Consistent (start_consistent program)
    fun _ _ _ hc _ hp => hc.perform hp

/-- In every kernel that any operations lead to, exactly the current thread is running, every
thread is in exactly the execution list of its state, the idle thread is in none, and only blocked
threads with a deadline sleep.
-/
theorem threadStates_match_lists {fuel : Nat} {program : Program}
    (reached : Reached fuel program (fun _ _ => True) kernel)
    : kernel.Consistent :=
  Reached.consistent reached

/-- Two threads start, one is delayed and woken by the timer, the other is suspended. -/
theorem threadStates_match_lists_delay
    : let ran := run (perform 1)
        (Kernel.start ⟨fun _ => .thread 5, fun _ => .thread 7, fun _ => .interrupt 1⟩)
        [.start 2, .executePendingReschedule 0, .start 3, .delayUntil 10, .suspend none,
          .reschedule RESCHEDULE_KIND_YIELD_TO_HIGHER 10]
      ran.map (fun kernel => (kernel.state 2, kernel.suspendedList)) = .ok (.running, [3])
      ∧ ∀ kernel, ran = .ok kernel → kernel.Consistent :=
  ⟨rfl, fun _ ran =>
    threadStates_match_lists (Reaches.here.run (fun _ _ _ => trivial) ran)⟩

end Scars.Kernel
