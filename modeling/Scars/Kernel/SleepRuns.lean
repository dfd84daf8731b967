import Scars.Kernel.DueSleepers
import Scars.Kernel.Sleepers

/-! Every operation keeps the sleep queue in deadline order and the alarm in time. -/

namespace Scars.Kernel

open Runs OrderedInsert

variable {kernel kernel' : Kernel} {thread : ThreadId} {now : Instant} {timeout : Option Instant}
  {wakeupTime : Instant} {fuel rounds : Nat} {lock : LockId} {queue : WaitQueueId}
  {ceiling : Priority}

/-- The sleep queue is in order and the poll queue is intact. -/
structure Punctual (kernel : Kernel) : Prop where
  timed : kernel.Timed
  polls : kernel.PollsIntact

theorem start_punctual (program : Program) : (Kernel.start program).Punctual where
  timed := ⟨by simp [Kernel.start], by simp [Kernel.start], by simp [Kernel.start]⟩
  polls := ⟨[], represents_new⟩

theorem Punctual.thins (punctual : kernel.Punctual) (thins : kernel.Thins kernel')
    : kernel'.Punctual :=
  ⟨punctual.timed.thins thins, thins.polls punctual.polls⟩

theorem thins_resumeThread (resumed : kernel.resumeThread thread = .ok kernel')
    : kernel.Thins kernel' :=
  routine_thins.resumeThread (fun _ => adjusts_requestIfHigher.thins) resumed

theorem thins_suspendThread {maybeThread : Option ThreadId}
    (suspended : kernel.suspendThread maybeThread = .ok kernel')
    : kernel.Thins kernel' :=
  routine_thins.suspendThread thins_insertToSuspendedList suspended

theorem thins_notifyNext (notified : kernel.notifyNext queue = .ok kernel')
    : kernel.Thins kernel' := by
  obtain ⟨waitQueue, waitOwner, rfl | ⟨thread, resumed⟩⟩ := notifyNext_ok notified
  · exact .of_eq rfl
  · refine Thins.trans ?_ (thins_resumeThread resumed)
    exact .of_eq rfl

theorem thins_sendEvents {events : Events} (sent : kernel.sendEvents thread events = .ok kernel')
    : kernel.Thins kernel' := by
  obtain ⟨stored, rfl | resumed⟩ := sendEvents_ok sent
  · exact .of_eq rfl
  · refine Thins.trans ?_ (thins_resumeThread resumed)
    exact .of_eq rfl

theorem thins_startThread (started : kernel.startThread thread = .ok kernel')
    : kernel.Thins kernel' := by
  unfold startThread at started
  split at started
  · cases started
  · refine Thins.trans ?_ (thins_resumeThread started)
    exact .of_eq rfl

theorem thins_setDeadline {suspendable : Suspendable}
    (awake : suspendable ∉ kernel.sleepQueue) (deadline : Option Instant)
    : kernel.Thins (kernel.setDeadline suspendable deadline) := by
  refine ⟨.refl _, fun sleeper hm => ?_, rfl, id⟩
  have other : sleeper ≠ suspendable := fun he => awake (he ▸ hm)
  simp [setDeadline, other]

theorem Timed.blockThread (timed : kernel.Timed) (awake : .thread thread ∉ kernel.sleepQueue)
    (blocks : kernel.blockThread thread timeout = .ok kernel')
    : kernel'.Timed := by
  have dated := timed.thins (thins_setDeadline awake timeout)
  cases timeout with
  | none =>
      rw [blockThread_none] at blocks
      exact dated.thins (thins_insertToBlockedQueue blocks)
  | some deadline =>
      obtain ⟨-, -, hi⟩ := blockThread_some blocks
      have marked
          : ((kernel.setDeadline (.thread thread) (some deadline)).setState thread
            .blocked).Timed :=
        dated.thins (.of_eq rfl)
      refine (marked.withSleeper ?_).thins (thins_insertToBlockedQueue hi)
      simp [setState, setDeadline]

theorem Punctual.blockThread (punctual : kernel.Punctual)
    (awake : .thread thread ∉ kernel.sleepQueue)
    (blocks : kernel.blockThread thread timeout = .ok kernel')
    : kernel'.Punctual := by
  refine ⟨punctual.timed.blockThread awake blocks, ?_⟩
  obtain ⟨-, _, _, rfl⟩ := blockThread_ok blocks
  exact punctual.polls

theorem Timed.delayThreadUntil (timed : kernel.Timed) (hc : kernel.Consistent)
    (delayed : kernel.delayThreadUntil wakeupTime = .ok kernel')
    : kernel'.Timed := by
  obtain ⟨notIdle, blocks⟩ := delayThreadUntil_ok delayed
  exact (timed.thins routine_thins.handOver).blockThread (hc.handOver notIdle).2 blocks

section

variable (punctual : kernel.Punctual)
include punctual

theorem Punctual.delayThreadUntil (hc : kernel.Consistent)
    (delayed : kernel.delayThreadUntil wakeupTime = .ok kernel')
    : kernel'.Punctual := by
  obtain ⟨notIdle, blocks⟩ := delayThreadUntil_ok delayed
  exact (punctual.thins routine_thins.handOver).blockThread (hc.handOver notIdle).2 blocks

theorem Punctual.waitCurrentThread (hc : kernel.Consistent)
    (waited : kernel.waitCurrentThread queue ceiling = .ok kernel')
    : kernel'.Punctual := by
  obtain ⟨notIdle, enqueued, hi, blocks⟩ := waitCurrentThread_ok waited
  have raised : kernel.Thins (kernel.raisedForWait ceiling).2 :=
    routine_thins.handOver.trans (adjusts_setHandlerPriorities _ _).thins
  have enqueues := raised.trans (thins_insertToWaitQueue hi)
  refine (punctual.thins (enqueues.trans (adjusts_setHandlerPriorities _ _).thins)).blockThread ?_
    blocks
  exact (sameLists_enqueued hi).sleeping ▸ (hc.handOver notIdle).2

theorem Punctual.waitCurrentThreadEvent (hc : kernel.Consistent) {events : Events}
    {deadline : Option Instant} {result : Events × Kernel}
    (waited : kernel.waitCurrentThreadEvent events deadline = .ok result)
    : result.2.Punctual := by
  obtain ⟨notIdle, -, blocks⟩ := waitCurrentThreadEvent_ok waited
  have asked : kernel.Thins (kernel.requested events).2 := .of_eq rfl
  rcases blockUnlessReceived_ok blocks with ⟨-, blocks⟩ | ⟨-, he⟩
  · have listed : (kernel.requested events).2.Consistent :=
      hc.congr (sameLists_requested events)
    exact (punctual.thins (asked.trans routine_thins.handOver)).blockThread
      (listed.handOver notIdle).2 blocks
  · rw [he]
    exact punctual.thins asked

/-- A handler is taken out before its new deadline orders it in again. -/
theorem Punctual.scheduleInterruptWakeup (unique : kernel.sleepQueue.Nodup) {handler : HandlerId}
    (scheduled
      : (kernel.setDeadline (.interrupt handler) (some wakeupTime)).scheduleInterruptWakeup
        handler = .ok kernel')
    : kernel'.Punctual := by
  have left := punctual.thins (routine_thins.leaveSleepQueue (.interrupt handler))
  rw [leaveSleepQueue_eq] at left
  have absent : .interrupt handler ∉ kernel.sleepQueue.erase (.interrupt handler) :=
    unique.not_mem_erase
  have dated := left.thins (thins_setDeadline absent (some wakeupTime))
  obtain ⟨asleep, hi, returned⟩ := bind_ok.mp scheduled
  rw [leaveSleepQueue_eq] at hi
  obtain ⟨-, rfl⟩ := insertToSleepQueue_ok hi
  cases returned
  refine ⟨dated.timed.withSleeper (by simp [setDeadline]), ?_⟩
  rw [reprogramAlarm_eq]
  exact dated.polls

end

theorem wakeDue_stops (nothing : kernel.dueSleepers now = [])
    : wakeDue fuel now (rounds + 1) kernel = .ok kernel.reprogramAlarm := by
  rw [reprogramAlarm_eq]
  unfold wakeDue
  split
  next empty => simp [empty]
  next head rest hq =>
    have early : kernel.isDue now head = false := by
      cases due : kernel.isDue now head with
      | false => rfl
      | true => simp [dueSleepers, hq, due] at nothing
    dsimp only
    split
    next time dated =>
      have later : now < time := by simpa [isDue, dated] using early
      simp [later, hq, dated]
    next undated => simp [isDue, undated] at early

theorem Timed.wakeDue (timed : kernel.Timed)
    (woken : Kernel.wakeDue fuel now rounds kernel = .ok kernel')
    : kernel'.Timed := by
  induction rounds generalizing kernel with
  | zero => cases woken
  | succ rounds ih =>
      rcases wakeDue_ok woken with ⟨nothing, -⟩ | ⟨head, rest, middle, hq, -, wakes, later⟩
      · rw [wakeDue_stops nothing] at woken
        cases woken
        exact timed_reprogramAlarm timed.dated timed.sorted
      · exact ih (timed.thins (routine_thins.wakeupHead hq wakes)) later

theorem PollsIntact.wakeDue (polls : kernel.PollsIntact)
    (woken : Kernel.wakeDue fuel now rounds kernel = .ok kernel')
    : kernel'.PollsIntact := by
  apply wakeDue_induction PollsIntact ?_ ?_ polls woken
  · exact fun _ _ intact => intact
  · intro before head rest after intact hq woke
    exact (routine_thins.wakeupHead hq woke).polls intact

theorem Timed.reschedule (timed : kernel.Timed) {fuel kind : Nat}
    (rescheduled : kernel.reschedule fuel kind now = .ok kernel')
    : kernel'.Timed := by
  obtain ⟨awake, woken, switched⟩ := bind_ok.mp rescheduled
  exact (timed.wakeDue woken).thins (routine_thins.switchToNext switched)

theorem Punctual.reschedule (punctual : kernel.Punctual) {fuel kind : Nat}
    (rescheduled : kernel.reschedule fuel kind now = .ok kernel')
    : kernel'.Punctual := by
  obtain ⟨awake, woken, switched⟩ := bind_ok.mp rescheduled
  exact ⟨punctual.timed.reschedule rescheduled,
    (routine_thins.switchToNext switched).polls (punctual.polls.wakeDue woken)⟩

theorem Punctual.executePendingReschedule (punctual : kernel.Punctual) {fuel : Nat}
    (executed : kernel.executePendingReschedule fuel now = .ok kernel')
    : kernel'.Punctual := by
  have cleared : { kernel with pendingRescheduleKind := RESCHEDULE_KIND_NONE }.Punctual :=
    punctual.thins (.of_eq rfl)
  unfold Kernel.executePendingReschedule at executed
  dsimp only at executed
  split at executed
  · cases executed; exact cleared
  · exact cleared.reschedule executed

/-- Every operation keeps the sleep queue in order. -/
theorem Punctual.perform (punctual : kernel.Punctual) (hc : kernel.Consistent)
    {fuel : Nat} {op : Op} (hp : kernel.perform fuel op = .ok kernel')
    : kernel'.Punctual := by
  cases op with
  | start thread => exact punctual.thins (thins_startThread hp)
  | resume thread => exact punctual.thins (thins_resumeThread hp)
  | suspend maybeThread => exact punctual.thins (thins_suspendThread hp)
  | wakeupNext => exact punctual.thins (routine_thins.wakeupNext hp)
  | reschedule kind now => exact punctual.reschedule hp
  | executePendingReschedule now => exact punctual.executePendingReschedule hp
  | wakeupScheduler | yieldCurrentThread => cases hp; exact punctual.thins (.of_eq rfl)
  | delayUntil wakeupTime => exact punctual.delayThreadUntil hc hp
  | wait queue ceiling => exact punctual.waitCurrentThread hc hp
  | waitEvent events deadline =>
      obtain ⟨result, waited, rfl⟩ := bind_pure_ok.mp hp
      exact punctual.waitCurrentThreadEvent hc waited
  | lock _ | unlock _ | enterSection _ | leaveSection | condReschedule =>
      exact punctual.thins (adjusts_perform hp trivial).thins
  | notifyNext queue => exact punctual.thins (thins_notifyNext hp)
  | sendEvents thread events => exact punctual.thins (thins_sendEvents hp)
  | scheduleInterruptWakeup handler wakeupTime =>
      exact punctual.scheduleInterruptWakeup hc.unrepeated.sleeping hp
  | resumeInterrupt handler =>
      exact punctual.thins (routine_thins.resumeInterrupt hp)

theorem Reached.punctual {fuel : Nat} {program : Program} {permitted : Kernel → Op → Prop}
    (reached : Reached fuel program permitted kernel)
    : kernel.Consistent ∧ kernel.Punctual := by
  apply reached.invariant fun kernel => kernel.Consistent ∧ kernel.Punctual
  · exact ⟨start_consistent program, start_punctual program⟩
  · rintro before op after ⟨hc, punctual⟩ - hp
    exact ⟨hc.perform hp, punctual.perform hc hp⟩

end Scars.Kernel
