import Scars.Kernel.SleepRuns

/-! A reschedule returns and wakes exactly the sleepers that are due. -/

namespace Scars.Kernel

open Runs OrderedInsert

variable {kernel kernel' : Kernel} {thread : ThreadId} {now : Instant} {rest : List Suspendable}
  {handlers : List HandlerId} {kind : Nat} {head : Suspendable}

/-- The sleeper's deadline has passed. -/
def Due (kernel : Kernel) (now : Instant) (suspendable : Suspendable) : Prop :=
  suspendable ∈ kernel.sleepQueue ∧ kernel.wakeupTime suspendable ≤ now

/-- What a reschedule at time `now` does to the sleepers, the blocked threads, the executor
polls and the alarm.
-/
structure WakesExactly (now : Instant) (kernel kernel' : Kernel) : Prop where
  /-- Exactly the due entries are removed, and the others stay in place. -/
  sleepers
    : kernel'.sleepQueue
      = kernel.sleepQueue.filter fun sleeper => decide (now < kernel.wakeupTime sleeper)
  deadlines : kernel'.deadline = kernel.deadline
  /-- A due thread was blocked, and now it is ready once or runs. -/
  woken
    : ∀ thread,
        kernel.Due now (.thread thread)
        → thread ∈ kernel.blockedList
          ∧ thread ∉ kernel'.blockedList
          ∧ (thread ≠ kernel'.currentThread ∧ kernel'.readyQueue.count thread = 1
            ∨ thread = kernel'.currentThread ∧ kernel'.readyQueue.count thread = 0)
  /-- No other thread is woken. -/
  asleep
    : ∀ thread ∈ kernel.blockedList,
        ¬ kernel.Due now (.thread thread) → thread ∈ kernel'.blockedList
  /-- The executor polls of the due handlers become pending. -/
  polls
    : ∃ handlers handlers',
        kernel.PollsPending handlers ∧ kernel'.PollsPending handlers'
        ∧ ∀ handler,
            handler ∈ handlers'
            ↔ handler ∈ handlers ∨ kernel.Due now (.interrupt handler)
  /-- The alarm is the earliest remaining deadline. -/
  unalarmed : kernel'.sleepQueue = [] → kernel'.alarm = none
  alarm
    : ∀ sleeper ∈ kernel'.sleepQueue,
        ∃ first ∈ kernel'.sleepQueue,
          kernel'.alarm = some (kernel'.wakeupTime first)
          ∧ kernel'.wakeupTime first ≤ kernel'.wakeupTime sleeper

theorem Timed.isDue_eq (timed : kernel.Timed) {sleeper : Suspendable}
    (hm : sleeper ∈ kernel.sleepQueue)
    : kernel.isDue now sleeper = decide (kernel.wakeupTime sleeper ≤ now) := by
  obtain ⟨time, dated⟩ := Option.isSome_iff_exists.mp (timed.dated sleeper hm)
  simp only [isDue, wakeupTime, dated, Option.getD_some, ← decide_not, Nat.not_lt]

theorem Timed.mem_dueSleepers (timed : kernel.Timed) (now : Instant) (sleeper : Suspendable)
    : sleeper ∈ kernel.dueSleepers now ↔ kernel.Due now sleeper := by
  unfold dueSleepers Due
  rw [(takeWhile_congr fun _ hm => timed.isDue_eq hm).1,
    (takeWhile_of_sorted now timed.sorted).1]
  simp

theorem Timed.dropWhile_isDue (timed : kernel.Timed)
    : kernel.sleepQueue.dropWhile (kernel.isDue now)
      = kernel.sleepQueue.filter fun sleeper => decide (now < kernel.wakeupTime sleeper) := by
  rw [(takeWhile_congr fun _ hm => timed.isDue_eq hm).2,
    (takeWhile_of_sorted now timed.sorted).2]

theorem insertToReadyQueue_of_free
    (free : thread ≠ IDLE_THREAD_ID → kernel.inExecList thread = false)
    : ∃ kernel', kernel.insertToReadyQueue thread = .ok kernel' := by
  unfold insertToReadyQueue
  dsimp only
  split
  · exact ⟨_, rfl⟩
  next notIdle =>
    have marked : (kernel.setState thread .ready).inExecList thread = false := free notIdle
    rw [if_neg (by simp [marked])]
    exact ⟨_, rfl⟩

theorem Detached.insertToReadyQueue_returns (detached : kernel.Detached thread)
    : ∃ kernel', kernel.insertToReadyQueue thread = .ok kernel' := by
  apply insertToReadyQueue_of_free
  intro _
  exact inExecList_eq_false.mpr
    ⟨detached.notReady, detached.notBlocked, detached.notSuspended⟩

theorem Consistent.wakeupThread_returns (hc : kernel.Consistent)
    (hq : kernel.sleepQueue = .thread thread :: rest)
    : ∃ kernel', { kernel with sleepQueue := rest }.wakeupThread thread = .ok kernel' := by
  have blocked := ((hc.filed thread).sleeping (by simp [hq])).1
  have notIdle : thread ≠ IDLE_THREAD_ID := by
    rintro rfl
    simpa [blocked] using hc.idle
  have listed := (hc.filed thread).blocked.mpr ⟨blocked, notIdle⟩
  have awake : { kernel with sleepQueue := rest }.Consistent := by
    have erased := hc.eraseSleeper (.thread thread)
    simpa [hq] using erased
  have signalled : ({ kernel with sleepQueue := rest }.setWakeupEvent thread).Consistent :=
    awake.congr (sameLists_setEvents _ _)
  obtain ⟨kernel', hi⟩ :=
    (signalled.detach_blocked blocked).insertToReadyQueue_returns
  refine ⟨kernel', ?_⟩
  unfold Kernel.wakeupThread
  rw [if_neg notIdle]
  simp only [blocked]
  refine bind_ok.mpr ⟨_, ?_, hi⟩
  unfold removeFromBlockedList
  rw [if_pos (by simpa [setWakeupEvent, setEvents] using listed)]

theorem Consistent.wakeupHead_returns (hc : kernel.Consistent)
    (pending : kernel.PollsPending handlers) (fuel : Nat)
    (hq : kernel.sleepQueue = head :: rest)
    : ∃ after handlers',
        { kernel with sleepQueue := rest }.wakeupSuspendable (fuel + 1) head = .ok after
        ∧ after.PollsPending handlers'
        ∧ ∀ handler,
            handler ∈ handlers' ↔ handler ∈ handlers ∨ .interrupt handler = head := by
  cases head with
  | thread thread =>
      obtain ⟨after, woken⟩ := hc.wakeupThread_returns hq
      refine ⟨after, handlers, woken, ?_, by simp⟩
      rcases (wakeupThread_ok woken).2 with ⟨-, -, hi⟩ | ⟨-, rfl⟩
      · rcases insertToReadyQueue_ok hi with ⟨-, rfl⟩ | ⟨-, -, rfl⟩
        · exact pending
        · exact pending
      · exact pending
  | interrupt handler =>
      have shortened : { kernel with sleepQueue := rest }.PollsPending handlers := pending
      obtain ⟨polls, pushed, after⟩ := shortened.setPendingExecutorPoll fuel handler
      refine ⟨_, _, pushed, after, fun other => ?_⟩
      simp only [Suspendable.interrupt.injEq]
      split
      next hq =>
        refine ⟨Or.inl, ?_⟩
        rintro (listed | rfl)
        · exact listed
        · exact hq
      next => simp

theorem wakeDue_wakes {fuel rounds : Nat} (hq : kernel.sleepQueue = head :: rest)
    (due : kernel.isDue now head = true)
    : wakeDue fuel now (rounds + 1) kernel
      = ({ kernel with sleepQueue := rest }.wakeupSuspendable fuel head
        >>= wakeDue fuel now rounds) := by
  conv => lhs; unfold wakeDue
  split
  next empty => simp [hq] at empty
  next first others he =>
    obtain ⟨rfl, rfl⟩ := List.cons.inj (hq.symm.trans he)
    dsimp only
    split
    next time dated =>
      have late : ¬ now < time := by simpa [isDue, dated] using due
      rw [if_neg late]
    next => rfl

/-- The wake-up loop returns when it has a round for each sleeper and one to stop. Witness:
induction on the rounds; each one shortens the queue.
-/
theorem Consistent.wakeDue_returns (hc : kernel.Consistent)
    (pending : kernel.PollsPending handlers) (fuel : Nat) (now : Instant) {rounds : Nat}
    (enough : kernel.sleepQueue.length < rounds)
    : ∃ after handlers',
        Kernel.wakeDue (fuel + 1) now rounds kernel = .ok after
        ∧ after.PollsPending handlers'
        ∧ (∀ handler,
            handler ∈ handlers'
            ↔ handler ∈ handlers ∨ .interrupt handler ∈ kernel.dueSleepers now)
        ∧ after.sleepQueue = kernel.sleepQueue.dropWhile (kernel.isDue now)
        ∧ after.deadline = kernel.deadline
        ∧ after.alarm = after.sleepQueue.head?.bind after.deadline := by
  induction rounds generalizing kernel handlers with
  | zero => simp at enough
  | succ rounds ih =>
      cases hq : kernel.sleepQueue with
      | nil =>
          have nothing : kernel.dueSleepers now = [] := by simp [dueSleepers, hq]
          refine ⟨kernel.reprogramAlarm, handlers, wakeDue_stops nothing, ?_⟩
          rw [reprogramAlarm_eq]
          exact ⟨pending, by simp [nothing], by simp [hq], rfl, rfl⟩
      | cons head rest =>
          cases due : kernel.isDue now head with
          | false =>
              have nothing : kernel.dueSleepers now = [] := by simp [dueSleepers, hq, due]
              refine ⟨kernel.reprogramAlarm, handlers, wakeDue_stops nothing, ?_⟩
              rw [reprogramAlarm_eq]
              exact ⟨pending, by simp [nothing], by simp [hq, due], rfl, rfl⟩
          | true =>
              obtain ⟨middle, between, woken, stillPending, added⟩ :=
                hc.wakeupHead_returns pending fuel hq
              obtain ⟨sleeping, deadlines, -⟩ := hc.wakeupHead_effect hq woken
              have sameDue : middle.isDue now = kernel.isDue now := by
                funext suspendable
                simp only [isDue, deadlines]
              have shorter : middle.sleepQueue.length < rounds := by
                rw [hq] at enough
                rw [sleeping]
                exact Nat.lt_of_succ_lt_succ enough
              obtain ⟨after, handlers', later, pends, listed, remaining, he, alarm⟩ :=
                ih (hc.wakeupHead hq woken) stillPending shorter
              refine ⟨after, handlers', ?_, pends, fun handler => ?_, ?_, he.trans deadlines,
                alarm⟩
              · rw [wakeDue_wakes hq due]
                exact bind_ok.mpr ⟨middle, woken, later⟩
              · rw [listed, added]
                simp only [dueSleepers, hq, sleeping, sameDue]
                rw [List.takeWhile_cons_of_pos due, List.mem_cons, or_assoc]
              · rw [remaining, sleeping, sameDue, List.dropWhile_cons_of_pos due]

theorem Consistent.switchToNext_returns (hc : kernel.Consistent)
    (yields
      : kind &&& RESCHEDULE_KIND_YIELD_TO_EQUAL ≠ 0
        ∨ kind &&& RESCHEDULE_KIND_YIELD_TO_HIGHER ≠ 0)
    : ∃ kernel', kernel.switchToNext kind = .ok kernel' := by
  unfold Kernel.switchToNext
  rw [if_neg (by tauto)]
  rcases kernel.popReadyIf_cases (kernel.mayReplaceCurrent kind) with
    ⟨head, rest, hq, -, popped⟩ | ⟨-, popped⟩
  · simp only [popped, Option.getD_some]
    split
    · obtain ⟨detached, awake⟩ := hc.detach_head hq
      exact (detached.switchThread awake).insertToReadyQueue_returns
    · exact ⟨_, rfl⟩
  · simp [popped]

theorem switchToNext_frame (switched : kernel.switchToNext kind = .ok kernel')
    : kernel'.sleepQueue = kernel.sleepQueue ∧ kernel'.deadline = kernel.deadline
      ∧ kernel'.alarm = kernel.alarm ∧ kernel'.polls = kernel.polls
      ∧ kernel'.blockedList = kernel.blockedList := by
  rcases switchToNext_ok switched with ⟨-, rfl⟩ | ⟨head, rest, -, -, cases⟩
  · exact ⟨rfl, rfl, rfl, rfl, rfl⟩
  · rcases cases with ⟨-, hi⟩ | ⟨-, rfl⟩
    · rcases insertToReadyQueue_ok hi with ⟨-, rfl⟩ | ⟨-, -, rfl⟩
      · exact ⟨rfl, rfl, rfl, rfl, rfl⟩
      · exact ⟨rfl, rfl, rfl, rfl, rfl⟩
    · exact ⟨rfl, rfl, rfl, rfl, rfl⟩

theorem switchToNext_ready (switched : kernel.switchToNext kind = .ok kernel')
    (ready : thread ∈ kernel.readyQueue)
    : thread ∈ kernel'.readyQueue ∨ thread = kernel'.currentThread := by
  rcases switchToNext_ok switched with ⟨-, rfl⟩ | ⟨head, rest, hq, -, cases⟩
  · exact Or.inl ready
  · rw [hq, List.mem_cons] at ready
    rcases cases with ⟨-, hi⟩ | ⟨he, rfl⟩
    · rcases insertToReadyQueue_ok hi with ⟨-, rfl⟩ | ⟨-, -, rfl⟩
      · exact ready.symm
      · exact ready.symm.imp (fun later => mem_insertPast.mpr (Or.inr later)) id
    · exact ready.symm.imp id fun isHead => isHead.trans he

theorem Consistent.ready_once (hc : kernel.Consistent)
    (listed : thread ∈ kernel.readyQueue ∨ thread = kernel.currentThread)
    : thread ≠ kernel.currentThread ∧ kernel.readyQueue.count thread = 1
      ∨ thread = kernel.currentThread ∧ kernel.readyQueue.count thread = 0 := by
  by_cases current : thread = kernel.currentThread
  · right
    refine ⟨current, List.count_eq_zero.mpr fun ready => ?_⟩
    have state := ((hc.filed thread).ready.mp ready).1
    exact hc.ne_current (by simp [state]) current
  · left
    have ready : thread ∈ kernel.readyQueue := listed.resolve_right current
    refine ⟨current, ?_⟩
    rw [hc.unrepeated.ready.count, if_pos ready]

theorem Consistent.wakesExactly (hc : kernel.Consistent) (punctual : kernel.Punctual)
    {fuel kind : Nat} (enough : 0 < fuel)
    (yields
      : kind &&& RESCHEDULE_KIND_YIELD_TO_EQUAL ≠ 0
        ∨ kind &&& RESCHEDULE_KIND_YIELD_TO_HIGHER ≠ 0)
    : ∃ kernel', kernel.reschedule fuel kind now = .ok kernel'
        ∧ kernel.WakesExactly now kernel' := by
  obtain ⟨more, rfl⟩ : ∃ more, fuel = more + 1 := ⟨fuel - 1, by omega⟩
  obtain ⟨handlers, pending⟩ := punctual.polls
  obtain ⟨awake, handlers', woken, pends, listed, remaining, deadlines, programmed⟩ :=
    hc.wakeDue_returns pending more now (Nat.lt_succ_self _)
  have wakes := hc.wakeDue_effect woken
  have hc' := hc.wakeDue woken
  obtain ⟨kernel', switched⟩ := hc'.switchToNext_returns yields
  obtain ⟨sleeping, dated, alarm, polls, blocked⟩ := switchToNext_frame switched
  have returned : kernel.reschedule (more + 1) kind now = .ok kernel' :=
    bind_ok.mpr ⟨awake, woken, switched⟩
  have timed := (punctual.reschedule returned).timed
  have first : kernel'.alarm = kernel'.sleepQueue.head?.bind kernel'.deadline := by
    rw [alarm, sleeping, dated, programmed]
  have due := punctual.timed.mem_dueSleepers now
  refine ⟨kernel', returned, ?_⟩
  constructor
  case sleepers => rw [sleeping, remaining, punctual.timed.dropWhile_isDue]
  case deadlines => exact dated.trans deadlines
  case woken =>
    intro thread isDue
    have asleep := ((hc.filed thread).sleeping isDue.1).1
    have notIdle : thread ≠ IDLE_THREAD_ID := by
      rintro rfl
      simpa [asleep] using hc.idle
    have ready := (wakes.ready thread).mpr (Or.inr ((due _).mpr isDue))
    refine ⟨(hc.filed thread).blocked.mpr ⟨asleep, notIdle⟩, ?_, ?_⟩
    · rw [blocked, wakes.blocked]
      exact fun still => still.2 ((due _).mpr isDue)
    · exact (hc.reschedule returned).ready_once (switchToNext_ready switched ready)
  case asleep =>
    intro thread hm notDue
    rw [blocked, wakes.blocked]
    exact ⟨hm, fun isDue => notDue ((due _).mp isDue)⟩
  case polls =>
    refine ⟨handlers, handlers', pending, ?_, fun handler => ?_⟩
    · unfold PollsPending
      rw [polls]
      exact pends
    · rw [listed, due]
  case unalarmed => intro empty; simp [first, empty]
  case alarm =>
    intro sleeper hm
    have sorted := timed.sorted
    cases hq : kernel'.sleepQueue with
    | nil => simp [hq] at hm
    | cons head rest =>
        obtain ⟨time, headDated⟩ :=
          Option.isSome_iff_exists.mp (timed.dated head (by simp [hq]))
        refine ⟨head, by simp, ?_, ?_⟩
        · simp [first, hq, headDated, wakeupTime]
        · rw [hq] at sorted hm
          rcases List.mem_cons.mp hm with rfl | later
          · exact Nat.le_refl _
          · exact List.rel_of_pairwise_cons sorted later

/-- After any operations the sleep queue is in deadline order and the alarm is in time, and a
reschedule wakes exactly the sleepers that are due.
-/
theorem timedWakeups_exact {fuel : Nat} {program : Program} (enough : 0 < fuel)
    (reached : Reached fuel program (fun _ _ => True) kernel)
    : kernel.Timed
      ∧ ∀ kind now,
          (kind &&& RESCHEDULE_KIND_YIELD_TO_EQUAL ≠ 0
            ∨ kind &&& RESCHEDULE_KIND_YIELD_TO_HIGHER ≠ 0)
          → ∃ kernel', kernel.reschedule fuel kind now = .ok kernel'
              ∧ kernel.WakesExactly now kernel' := by
  obtain ⟨hc, punctual⟩ := Reached.punctual reached
  exact ⟨punctual.timed, fun kind now yields => hc.wakesExactly punctual enough yields⟩

/-- Thread 5 sleeps until 7, handler 3 until 4 and thread 2 until 9. -/
theorem timedWakeups_exact_three
    : let program : Program :=
        ⟨fun thread => .thread thread.toUInt8, fun _ => .thread 9, fun _ => .interrupt 1⟩
      let ran := run (perform 1) (Kernel.start program)
        [.start 5, .start 2, .executePendingReschedule 0, .delayUntil 7, .delayUntil 9,
          .scheduleInterruptWakeup 3 4]
      ∃ kernel kernel',
        ran = .ok kernel
        ∧ kernel.sleepQueue = [.interrupt 3, .thread 5, .thread 2]
        ∧ kernel.reschedule 1 RESCHEDULE_KIND_YIELD_TO_HIGHER 8 = .ok kernel'
        ∧ kernel'.currentThread = 5
        ∧ kernel.Timed ∧ kernel.WakesExactly 8 kernel' := by
  intro program ran
  have sleeping
      : ran.map Kernel.sleepQueue = .ok [.interrupt 3, .thread 5, .thread 2] := by
    unfold ran program
    rfl
  have switches
      : (ran.bind fun kernel => kernel.reschedule 1 RESCHEDULE_KIND_YIELD_TO_HIGHER 8).map
          Kernel.currentThread = .ok 5 := by
    unfold ran program
    rfl
  obtain ⟨kernel, ended⟩ : ∃ kernel, ran = .ok kernel := by
    unfold ran program
    exact ⟨_, rfl⟩
  rw [ended] at sleeping switches
  have reached : Reached 1 program (fun _ _ => True) kernel :=
    Reaches.here.run (fun _ _ _ => trivial) ended
  obtain ⟨timed, wakesAll⟩ := timedWakeups_exact (by decide) reached
  obtain ⟨kernel', returned, wakes⟩ := wakesAll RESCHEDULE_KIND_YIELD_TO_HIGHER 8 (by decide)
  have current : (kernel.reschedule 1 RESCHEDULE_KIND_YIELD_TO_HIGHER 8).map
      Kernel.currentThread = .ok 5 := switches
  rw [returned] at current
  exact ⟨kernel, kernel', ended, Except.ok.inj sleeping, returned, Except.ok.inj current, timed,
    wakes⟩

end Scars.Kernel
