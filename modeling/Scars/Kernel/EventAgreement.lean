import Scars.Kernel.Invariants

/-! The blocking and the trying event wait on the same masks.
The kernel's test and `will_not_block` decide by the same any-or-all rule only for requests that
are met completely or not at all.
-/

namespace Scars

open Runs OrderedInsert Events

namespace Events

theorem requireAll_withoutFlag (events : Events) : events.withoutFlag.requireAll = false := by
  have none : events.withoutFlag &&& REQUIRE_ALL_EVENTS = 0#32 := by
    have apart : ~~~REQUIRE_ALL_EVENTS &&& REQUIRE_ALL_EVENTS = 0#32 := by decide
    unfold withoutFlag
    rw [BitVec.and_assoc, apart, BitVec.and_zero]
  exact bne_eq_false_iff_eq.mpr none

theorem withoutFlag_withoutFlag (events : Events)
    : events.withoutFlag.withoutFlag = events.withoutFlag := by
  unfold withoutFlag
  rw [BitVec.and_assoc, BitVec.and_self]

theorem missing_iff (sent events : Events)
    : (∃ index, events.getLsbD index = true ∧ sent.getLsbD index = false)
      ↔ sent &&& events ≠ events := by
  constructor
  · rintro ⟨index, asked, unsent⟩ he
    have bit := congrArg (fun mask : Events => mask.getLsbD index) he
    simp [asked, unsent] at bit
  · intro partly
    by_contra complete
    push Not at complete
    refine partly (BitVec.eq_of_getLsbD_eq fun index _ => ?_)
    rw [BitVec.getLsbD_and]
    cases asked : events.getLsbD index with
    | false => simp
    | true => simpa using complete index asked

theorem noneSent_iff (sent events : Events)
    : (∀ index, events.getLsbD index = true → sent.getLsbD index = false)
      ↔ sent &&& events = 0 := by
  constructor
  · intro unsent
    refine BitVec.eq_of_getLsbD_eq fun index _ => ?_
    rw [BitVec.getLsbD_and]
    cases asked : events.getLsbD index with
    | false => simp
    | true => simp [unsent index asked]
  · intro empty index asked
    have bit := congrArg (fun mask : Events => mask.getLsbD index) empty
    simpa [asked] using bit

end Events

namespace EventSet

/-- `EventSet::try_wait_events` up to its system call: the request it passes to `wait_events`,
or nothing when it answers that the wait would block.
-/
def tryWaitRequest (events : Events) (self : EventSet) : Option Events :=
  let requireAll := events.requireAll
  let events := events.withoutFlag
  if willNotBlock requireAll self.sentEventsMask events then some events else none

theorem willNotBlock_iff {requireAll : Bool} {sent events : Events}
    : willNotBlock requireAll sent events = true
      ↔ (requireAll = false ∧ sent &&& events ≠ 0) ∨ sent &&& events = events := by
  simp [willNotBlock]

theorem tryWaitRequest_eq_some {set : EventSet} {events request : Events}
    (tried : set.tryWaitRequest events = some request)
    : willNotBlock events.requireAll set.sentEventsMask events.withoutFlag = true
      ∧ request = events.withoutFlag := by
  unfold tryWaitRequest at tried
  dsimp only at tried
  split at tried
  next passes => exact ⟨passes, (Option.some.inj tried).symm⟩
  · cases tried

end EventSet

namespace Kernel

variable {kernel kernel' : Kernel} {thread : ThreadId} {events : Events} {deadline : Option Instant}

theorem Detached.insertToBlockedQueue_returns (detached : kernel.Detached thread)
    (notIdle : thread ≠ IDLE_THREAD_ID)
    : ∃ kernel', kernel.insertToBlockedQueue thread = .ok kernel' := by
  have free : (kernel.setState thread .blocked).inExecList thread = false :=
    inExecList_eq_false.mpr ⟨detached.notReady, detached.notBlocked, detached.notSuspended⟩
  unfold Kernel.insertToBlockedQueue
  rw [if_neg notIdle, if_neg (by simp [free])]
  exact ⟨_, rfl⟩

theorem Detached.blockThread_returns (detached : kernel.Detached thread)
    (awake : .thread thread ∉ kernel.sleepQueue) (notIdle : thread ≠ IDLE_THREAD_ID)
    (timeout : Option Instant)
    : ∃ kernel', kernel.blockThread thread timeout = .ok kernel' := by
  cases timeout with
  | none => exact (detached.setDeadline none).insertToBlockedQueue_returns notIdle
  | some deadline =>
      have timed := (detached.setDeadline (some deadline)).setState .blocked
      have sleeper := (timed.withSleeper awake).congr sameLists_reprogramAlarm
      obtain ⟨kernel', hi⟩ := sleeper.insertToBlockedQueue_returns notIdle
      refine ⟨kernel', bind_ok.mpr ⟨_, ?_, hi⟩⟩
      have absent : ((kernel.setDeadline (.thread thread) (some deadline)).setState thread
          .blocked).inSleepQueue (.thread thread) = false := by
        simpa [inSleepQueue, Kernel.setState, Kernel.setDeadline] using awake
      unfold insertToWakeupQueue insertToSleepQueue
      rw [if_neg notIdle, if_neg (by simp [absent])]
      rfl

/-- The wait returns and leaves the current thread running. -/
def LeavesRunning (kernel : Kernel) (events : Events) (deadline : Option Instant) : Prop :=
  ∃ result,
    kernel.waitCurrentThreadEvent events deadline = .ok result
    ∧ result.2.state kernel.currentThread = .running

/-- The wait blocks the current thread. -/
def BlocksCurrent (kernel : Kernel) (events : Events) (deadline : Option Instant) : Prop :=
  ∃ result,
    kernel.waitCurrentThreadEvent events deadline = .ok result
    ∧ result.2.state kernel.currentThread = .blocked

/-- The events sent to the current thread. -/
def sentToCurrent (kernel : Kernel) : Events :=
  (kernel.events kernel.currentThread).sentEventsMask

section

variable (hc : kernel.Consistent)
include hc

section

variable (notIdle : kernel.currentThread ≠ IDLE_THREAD_ID)
include notIdle

/-- The last part of a wait hands over and files the thread as blocked when its test says so,
and leaves it running otherwise.
-/
theorem Consistent.blockUnlessReceived_returns (events : Events) (deadline : Option Instant)
    (received : Events)
    : ∃ kernel',
        kernel.blockUnlessReceived events deadline received = .ok kernel'
        ∧ kernel'.state kernel.currentThread
          = if mustBlock events received then .blocked else .running := by
  unfold Kernel.blockUnlessReceived
  split
  next must =>
    obtain ⟨detached, awake⟩ := hc.handOver notIdle
    obtain ⟨kernel', blocks⟩ := detached.blockThread_returns awake notIdle deadline
    have listed := ((blockThread_frame blocks).2.2 kernel.currentThread).mpr (Or.inl rfl)
    have filed := (detached.blockThread awake blocks).filed kernel.currentThread
    exact ⟨kernel', by simpa using blocks, (filed.blocked.mp listed).1⟩
  next mayNot => exact ⟨kernel, rfl, (hc.running kernel.currentThread).mpr rfl⟩

/-- A wait of the current thread returns, and its own test on the events of the request that
were sent decides whether the thread is blocked or runs on.
-/
theorem Consistent.waitCurrentThreadEvent_returns (events : Events) (deadline : Option Instant)
    : ∃ result,
        kernel.waitCurrentThreadEvent events deadline = .ok result
        ∧ result.2.state kernel.currentThread
          = if mustBlock events (kernel.sentToCurrent &&& events.withoutFlag) then .blocked
            else .running := by
  have asked := hc.congr (sameLists_requested events)
  have received : (kernel.requested events).1 = kernel.sentToCurrent &&& events.withoutFlag := by
    simp [requested, consumeEvents, Kernel.setWaitedEvents, sentToCurrent, Kernel.setEvents,
      EventSet.readAndClearMatchingSentEvents, EventSet.setWaitedEvents]
  obtain ⟨kernel', blocks, state⟩ :=
    asked.blockUnlessReceived_returns notIdle events deadline (kernel.requested events).1
  rw [received] at state
  refine ⟨((kernel.requested events).1, kernel'), ?_, state⟩
  unfold Kernel.waitCurrentThreadEvent
  rw [if_neg notIdle]
  exact bind_ok.mpr ⟨kernel', blocks, rfl⟩

theorem Consistent.leavesRunning_iff
    : kernel.LeavesRunning events deadline
      ↔ mustBlock events (kernel.sentToCurrent &&& events.withoutFlag) = false := by
  obtain ⟨result, waited, state⟩ :=
    hc.waitCurrentThreadEvent_returns notIdle events deadline
  unfold LeavesRunning
  constructor
  · rintro ⟨other, again, running⟩
    cases waited.symm.trans again
    by_contra must
    simp [state, must] at running
  · intro mayNot
    exact ⟨result, waited, by simp [state, mayNot]⟩

theorem Consistent.blocks_iff
    : kernel.BlocksCurrent events deadline
      ↔ mustBlock events (kernel.sentToCurrent &&& events.withoutFlag) = true := by
  obtain ⟨result, waited, state⟩ :=
    hc.waitCurrentThreadEvent_returns notIdle events deadline
  unfold BlocksCurrent
  constructor
  · rintro ⟨other, again, blocked⟩
    cases waited.symm.trans again
    by_contra mayNot
    simp [state, mayNot] at blocked
  · intro must
    exact ⟨result, waited, by simp [state, must]⟩

end

end

theorem mustBlock_iff {sent events : Events}
    : mustBlock events (sent &&& events.withoutFlag) = true
      ↔ (events.requireAll = false ∧ sent &&& events.withoutFlag = 0)
        ∨ sent &&& events.withoutFlag ≠ events.withoutFlag := by
  have he : sent &&& events.withoutFlag &&& events.withoutFlag
      = sent &&& events.withoutFlag := by
    rw [BitVec.and_assoc, BitVec.and_self]
  simp [mustBlock, he]

/-- The current thread sees more events sent to it before its system call. -/
def sentMore (kernel : Kernel) (more : Events) : Kernel :=
  kernel.setEvents kernel.currentThread
    ((kernel.events kernel.currentThread).sendFetchOr more).2

/-- The two waits of the current thread agree on a request: the wait leaves the thread running
exactly when `will_not_block` holds, it blocks exactly when the any-or-all rule says so, and the
wait after a passed check does not block, whatever is sent in between.
-/
structure WaitsAgree (kernel : Kernel) (events : Events) : Prop where
  running
    : ∀ deadline,
        kernel.LeavesRunning events deadline
        ↔ EventSet.willNotBlock events.requireAll kernel.sentToCurrent events.withoutFlag = true
  all
    : events.requireAll = true
      → ∀ deadline,
          kernel.BlocksCurrent events deadline
          ↔ ∃ index,
              events.withoutFlag.getLsbD index = true
              ∧ kernel.sentToCurrent.getLsbD index = false
  any
    : events.requireAll = false
      → ∀ deadline,
          kernel.BlocksCurrent events deadline
          ↔ ∀ index,
              events.withoutFlag.getLsbD index = true
              → kernel.sentToCurrent.getLsbD index = false
  tried
    : ∀ request,
        (kernel.events kernel.currentThread).tryWaitRequest events = some request
        → ∀ more, ¬ (kernel.sentMore more).BlocksCurrent request none

/-- A request for some events that is met completely, or not at all, or asks for all its
events.
-/
def MetWholly (sent events : Events) : Prop :=
  events.withoutFlag ≠ 0
  ∧ (events.requireAll = true ∨ sent &&& events.withoutFlag = 0
    ∨ sent &&& events.withoutFlag = events.withoutFlag)

instance (sent events : Events) : Decidable (MetWholly sent events) :=
  inferInstanceAs (Decidable (_ ∧ _))

/-- The check of the trying wait passes only when all events of such a request were sent. -/
theorem MetWholly.complete {sent events : Events} (wholly : MetWholly sent events)
    (passes : EventSet.willNotBlock events.requireAll sent events.withoutFlag = true)
    : sent &&& events.withoutFlag = events.withoutFlag := by
  obtain ⟨some, all | none | complete⟩ := wholly
  · rcases EventSet.willNotBlock_iff.mp passes with ⟨any, -⟩ | complete
    · rw [all] at any
      cases any
    · exact complete
  · rcases EventSet.willNotBlock_iff.mp passes with ⟨-, received⟩ | complete
    · exact absurd none received
    · exact complete
  · exact complete

/-- On such a request the kernel's test is the negation of `will_not_block`. -/
theorem MetWholly.mustBlock_iff_not {sent events : Events} (wholly : MetWholly sent events)
    : mustBlock events (sent &&& events.withoutFlag) = true
      ↔ ¬ EventSet.willNotBlock events.requireAll sent events.withoutFlag = true := by
  rw [mustBlock_iff]
  constructor
  · rintro blocks passes
    have complete := wholly.complete passes
    rcases blocks with ⟨-, none⟩ | incomplete
    · exact wholly.1 (complete.symm.trans none)
    · exact incomplete complete
  · intro fails
    exact Or.inr fun complete => fails (EventSet.willNotBlock_iff.mpr (Or.inr complete))

theorem MetWholly.mustBlock_any {sent events : Events} (wholly : MetWholly sent events)
    (any : events.requireAll = false)
    : mustBlock events (sent &&& events.withoutFlag) = true
      ↔ sent &&& events.withoutFlag = 0 := by
  rw [mustBlock_iff]
  constructor
  · rintro (⟨-, none⟩ | incomplete)
    · exact none
    · rcases wholly.2 with all | none | complete
      · rw [any] at all
        cases all
      · exact none
      · exact absurd complete incomplete
  · exact fun none => Or.inl ⟨any, none⟩

theorem mustBlock_all {sent events : Events} (all : events.requireAll = true)
    : mustBlock events (sent &&& events.withoutFlag) = true
      ↔ sent &&& events.withoutFlag ≠ events.withoutFlag := by
  rw [mustBlock_iff, all]
  simp

theorem complete_sentMore {events more : Events}
    (complete : kernel.sentToCurrent &&& events.withoutFlag = events.withoutFlag)
    : (kernel.sentMore more).sentToCurrent &&& events.withoutFlag = events.withoutFlag := by
  have sent : (kernel.sentMore more).sentToCurrent = kernel.sentToCurrent ||| more.withoutFlag := by
    simp [sentMore, sentToCurrent, Kernel.setEvents, EventSet.sendFetchOr]
  rw [sent]
  ext index bound
  have bit := congrArg (fun mask : Events => mask.getLsbD index) complete
  simp only [BitVec.getLsbD_eq_getElem bound] at bit
  simp only [BitVec.getElem_and, BitVec.getElem_or]
  grind

theorem mustBlock_stripped {sent events : Events} (some : events.withoutFlag ≠ 0)
    : mustBlock events.withoutFlag (sent &&& events.withoutFlag.withoutFlag) = true
      ↔ sent &&& events.withoutFlag ≠ events.withoutFlag := by
  rw [mustBlock_iff, withoutFlag_withoutFlag]
  constructor
  · rintro (⟨-, none⟩ | incomplete)
    · exact fun complete => some (complete.symm.trans none)
    · exact incomplete
  · exact Or.inr

theorem Consistent.sentMore (hc : kernel.Consistent) (more : Events)
    : (kernel.sentMore more).Consistent :=
  hc.congr (sameLists_setEvents _ _)

theorem Consistent.waitsAgree (hc : kernel.Consistent)
    (notIdle : kernel.currentThread ≠ IDLE_THREAD_ID)
    (wholly : MetWholly kernel.sentToCurrent events)
    : kernel.WaitsAgree events where
  running deadline := by
    rw [hc.leavesRunning_iff notIdle, ← Bool.not_eq_true, wholly.mustBlock_iff_not,
      not_not]
  all all deadline := by
    rw [hc.blocks_iff notIdle, mustBlock_all all, missing_iff]
  any any deadline := by
    rw [hc.blocks_iff notIdle, wholly.mustBlock_any any, noneSent_iff]
  tried request tried more blocked := by
    obtain ⟨passes, rfl⟩ := EventSet.tryWaitRequest_eq_some tried
    have must := ((hc.sentMore more).blocks_iff notIdle).mp blocked
    exact (mustBlock_stripped wholly.1).mp must
      (complete_sentMore (wholly.complete passes))

theorem idle_neither (idle : kernel.currentThread = IDLE_THREAD_ID) (events : Events)
    (deadline : Option Instant)
    : ¬ kernel.LeavesRunning events deadline ∧ ¬ kernel.BlocksCurrent events deadline := by
  have panics : kernel.waitCurrentThreadEvent events deadline = .error .idleCannotBlock := by
    unfold Kernel.waitCurrentThreadEvent
    rw [if_pos idle]
  constructor
  · rintro ⟨result, waited, -⟩
    cases panics.symm.trans waited
  · rintro ⟨result, waited, -⟩
    cases panics.symm.trans waited

/-- The idle thread cannot follow the rule: it must run on or block, and does neither. -/
theorem WaitsAgree.notIdle (agree : kernel.WaitsAgree events)
    : kernel.currentThread ≠ IDLE_THREAD_ID := by
  intro idle
  obtain ⟨stopped, unblocked⟩ := idle_neither idle events none
  refine stopped ((agree.running none).mpr (EventSet.willNotBlock_iff.mpr ?_))
  cases flag : events.requireAll with
  | true =>
      by_contra incomplete
      exact unblocked ((agree.all flag none).mpr
        ((missing_iff _ _).mpr fun complete => incomplete (Or.inr complete)))
  | false =>
      by_contra unmet
      refine unblocked ((agree.any flag none).mpr ((noneSent_iff _ _).mpr ?_))
      by_contra received
      exact unmet (Or.inl ⟨rfl, received⟩)

/-- Agreement needs a request that is met wholly. Witness: an empty request passes the check
and blocks; a request met in part passes `will_not_block`, and the kernel's test blocks it.
-/
theorem Consistent.metWholly (hc : kernel.Consistent) (agree : kernel.WaitsAgree events)
    : MetWholly kernel.sentToCurrent events := by
  have notIdle := agree.notIdle
  constructor
  · intro empty
    have passes : EventSet.willNotBlock events.requireAll kernel.sentToCurrent
        events.withoutFlag = true := by
      rw [empty]
      exact EventSet.willNotBlock_iff.mpr (Or.inr BitVec.and_zero)
    have tried : (kernel.events kernel.currentThread).tryWaitRequest events
        = some events.withoutFlag := if_pos passes
    refine agree.tried _ tried 0 (((hc.sentMore 0).blocks_iff notIdle).mpr ?_)
    refine mustBlock_iff.mpr (Or.inl ⟨requireAll_withoutFlag events, ?_⟩)
    rw [withoutFlag_withoutFlag, empty]
    exact BitVec.and_zero
  · by_contra partly
    push Not at partly
    obtain ⟨any, received, incomplete⟩ := partly
    have flag : events.requireAll = false := eq_false_of_ne_true any
    have passes := (agree.running none).mpr (EventSet.willNotBlock_iff.mpr
      (Or.inl ⟨flag, received⟩))
    rw [hc.leavesRunning_iff notIdle] at passes
    have must := mustBlock_iff.mpr (Or.inr incomplete)
    rw [passes] at must
    cases must

/-- In every kernel that any operations lead to, the two waits of the current thread agree on a
request exactly when the thread is not the idle one, the request names an event, and it asks for
all its events or they were sent completely or not at all.
-/
theorem waitsAgree_iff_metWholly {fuel : Nat} {program : Program}
    (reached : Reached fuel program (fun _ _ => True) kernel) (events : Events)
    : kernel.WaitsAgree events
      ↔ kernel.currentThread ≠ IDLE_THREAD_ID ∧ MetWholly kernel.sentToCurrent events := by
  have hc := Reached.consistent reached
  constructor
  · intro agree
    exact ⟨agree.notIdle, hc.metWholly agree⟩
  · rintro ⟨notIdle, wholly⟩
    exact hc.waitsAgree notIdle wholly

/-- A run at whose end thread 2 is current and event 0 was sent to it. -/
def oneEventSent : Except Fault Kernel :=
  run (perform 1) (Kernel.start ⟨fun _ => .thread 1, fun _ => .thread 1, fun _ => .interrupt 1⟩)
    [.start 2, .executePendingReschedule 0, .sendEvents 2 1]

/-- A request for event 0 alone is met, and the waits agree on it. -/
theorem waitsAgree_iff_metWholly_single
    : oneEventSent.map (fun kernel => (kernel.currentThread, kernel.sentToCurrent)) = .ok (2, 1)
      ∧ ∀ kernel, oneEventSent = .ok kernel → kernel.WaitsAgree 1 := by
  refine ⟨rfl, fun kernel ran => ?_⟩
  have reached := Reaches.here.run (fun _ _ _ => trivial) ran
  cases ran
  exact (waitsAgree_iff_metWholly reached 1).mpr ⟨by decide, by decide⟩

/-- A request for event 0 or 1 passes the check of the trying wait, and the wait then blocks the
thread although event 0 was sent. So does the empty request for all its events.
-/
theorem passed_check_blocks
    : (oneEventSent.map fun kernel =>
        ((kernel.events kernel.currentThread).tryWaitRequest 3,
          (kernel.waitCurrentThreadEvent 3 none).map fun result =>
            (result.1, result.2.state kernel.currentThread)))
        = .ok (some 3, .ok (1, .blocked))
      ∧ (oneEventSent.map fun kernel =>
        ((kernel.events kernel.currentThread).tryWaitRequest Events.REQUIRE_ALL_EVENTS,
          (kernel.waitCurrentThreadEvent 0 none).map fun result =>
            (result.1, result.2.state kernel.currentThread)))
        = .ok (some 0, .ok (0, .blocked)) :=
  ⟨rfl, rfl⟩

end Kernel

end Scars
