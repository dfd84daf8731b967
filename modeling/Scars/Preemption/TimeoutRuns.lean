import Scars.Preemption.EventAccounts
import Scars.Preemption.Timing

/-! Timeouts are those of the wait that reports them, in every run in which no wait for events
with a deadline begins with the wake-up event of the thread set.
The event outlives the wait or delay whose deadline set it, until a wait with a deadline returns.
-/

namespace Scars.Timing

open Memory Runs Function Machine

variable {timing timing' : Timing} {program : Program} {fuel : Nat} {more rest code : List Instr}
  {thread : ThreadId} {events : Events} {event : Machine.Event} {next : Machine}

theorem record_call {call : Call}
    (other
      : thread = timing.raw.currentThread
        → ∀ asked deadline, call ≠ .waitEventsUntil asked deadline)
    : timing.record next (.call call) thread = timing.woken thread := by
  cases call with
  | waitEventsUntil asked deadline =>
      exact update_of_ne (fun he => other he asked deadline rfl) _ _
  | _ => rfl

section

variable (correct : timing.Correct)
include correct

/-- User code of a thread is inside of no wait, and a call with a deadline begins one. -/
theorem Correct.waits_call {call : Call} (hrun : timing.running = .user :: rest)
    (ha : timing.mayCall call = true)
    (hm
      : .access (.collectEvents events true)
        ∈ (timing.setRunning (call.code ++ .user :: rest)).code thread)
    : .access (.collectEvents events true) ∈ timing.code thread
        ∧ (∀ next, timing.record next (.call call) thread = timing.woken thread)
      ∨ timing.frames = []
        ∧ thread = timing.raw.currentThread
        ∧ ∃ deadline, call = .waitEventsUntil events deadline := by
  cases frames : timing.frames with
  | cons top below =>
      rw [code_setRunning_of_frame frames] at hm
      have interrupt := inInterrupt_of_active (by simp [frames]) ha
      refine Or.inl ⟨hm, fun _ => record_call fun _ asked deadline he => ?_⟩
      rw [he] at interrupt
      cases interrupt
  | nil =>
      rw [code_setRunning_of_thread frames] at hm
      by_cases isCurrent : thread = timing.raw.currentThread
      · subst isCurrent
        rw [update_self] at hm
        have trailing := correct.trailing _ (Or.inl hrun.symm)
        rcases List.mem_append.mp hm with inCall | later
        · refine Or.inr ⟨rfl, rfl, ?_⟩
          cases call <;> simp [Call.code, resumeCode, waitEventsCode] at inCall ⊢
          exact inCall.symm
        · rcases List.mem_cons.mp later with isUser | old
          · cases isUser
          · cases trailing.1 rfl _ old
      · rw [update_of_ne isCurrent] at hm
        exact Or.inl ⟨hm, fun _ => record_call fun he => absurd he isCurrent⟩

section

variable (ha : timing.unsignalled event = true)
include ha

theorem Correct.timed_step (hs : timing.toMachine.step fuel event = .ok next)
    (hm : .access (.collectEvents events true) ∈ next.code thread)
    : Tells next.toMemory (timing.record next event) thread events := by
  cases step_ok hs with
  | instr hrun hp =>
      obtain ⟨before, inside⟩ := correct.waits_goOn hrun hp hm
      rw [toMemory_goOn]
      exact correct.tells_perform hrun hp (toMemory_goOn _ _ _ _) before inside
  | restore active ended =>
      have none : timing.running = [] := by rw [running_of_frame active, ended]
      simp only [record, none]
      exact correct.timed thread events hm
  | @call call rest hrun callable =>
      rw [toMemory_setRunning]
      rcases correct.waits_call hrun callable hm with
        ⟨before, he⟩ | ⟨idle, rfl, deadline, rfl⟩
      · have tells := correct.timed thread events before
        exact ⟨tells.apart, tells.received, by rw [he]; exact tells.signalled⟩
      · -- a wait with a deadline begins, and the condition holds of it
        obtain ⟨apart, clear⟩ : _ ∧ _ := by simpa [unsignalled] using ha
        rw [running_of_thread idle] at hrun
        refine ⟨apart, ?_, iff_of_false (fun signalled => signalled clear) ?_⟩
        · rw [correct.consuming.received_of_head hrun rfl]
          exact BitVec.zero_and
        · simp [record]
  | @finish rest hrun ends =>
      rw [toMemory_setRunning]
      have before : .access (.collectEvents events true) ∈ timing.code thread := by
        cases frames : timing.frames with
        | cons top below => rwa [code_setRunning_of_frame frames] at hm
        | nil =>
            rw [code_setRunning_of_thread frames] at hm
            by_cases isCurrent : thread = timing.raw.currentThread
            · subst isCurrent
              rw [update_self] at hm
              cases (correct.trailing _ (Or.inl hrun.symm)).1 rfl _ hm
            · rwa [update_of_ne isCurrent] at hm
      exact correct.timed thread events before
  | fire => exact correct.timed thread events hm

/-- Senders of the wake-up event are kept out by the condition. -/
theorem Correct.sends_step (hs : timing.toMachine.step fuel event = .ok next)
    (hasCode : next.HasCode code) {receiver : ThreadId}
    (hm : .access (.sendEvents receiver events) ∈ code)
    : events &&& Events.SCHEDULER_WAKEUP_EVENT = 0 := by
  rcases mem_hasCode_step correct.exclusive hs hasCode hm with
    ⟨code, before, hm⟩ | added
  · exact correct.sends code before receiver events hm
  · cases added with
    | continues continues hm => exact absurd hm continues.sends
    | @called call _ hm =>
        cases call <;> simp [Call.code, resumeCode, waitEventsCode] at hm
        obtain ⟨rfl, rfl⟩ := hm
        simpa [unsignalled] using ha
    | entered enters hm =>
        rcases enters with rfl | ⟨call, rfl⟩
        · cases List.mem_singleton.mp hm
        · cases call <;> simp [Syscall.code] at hm
    | ends hm => simp [interruptExit] at hm

theorem Correct.step (hs : timing.step fuel event = .ok timing')
    : timing'.Correct := by
  obtain ⟨next, ran, rfl⟩ := map_ok.mp hs
  exact {
    exclusive := correct.exclusive.step ran
    settled := correct.settled.step correct.exclusive ran
    serving := correct.serving.step correct.exclusive ran
    consuming := correct.consuming.step correct.serving correct.exclusive ran
    trailing := keptByCode_trailing.step correct.exclusive correct.trailing ran
    sends _ hasCode _ _ hm := correct.sends_step ha ran hasCode hm
    timed _ _ hm := correct.timed_step ha ran hm }

end

/-- The events that a wait with a deadline returns hold the wake-up event iff the thread was
woken.
-/
theorem Correct.returned (hrun : timing.running = .access (.collectEvents events true) :: rest)
    : timing.toMemory.returned events true &&& Events.SCHEDULER_WAKEUP_EVENT ≠ 0
      ↔ timing.woken timing.raw.currentThread = true := by
  have idle := correct.consuming.idle_of_endsWait hrun rfl
  rw [running_of_thread idle] at hrun
  have tells := correct.timed timing.raw.currentThread events (by simp [hrun])
  rw [← tells.signalled]
  unfold Memory.returned Kernel.Signalled
  simp only [if_true]
  rw [BitVec.and_or_distrib_right, tells.received, BitVec.and_or_distrib_left,
    BitVec.and_or_distrib_right, BitVec.and_assoc, tells.apart, BitVec.and_assoc,
    BitVec.and_self]
  simp

end

/-- In a run in which the wake-up event is left to the scheduler and no wait with a deadline is
called with the event set, every wait with a deadline returns, and reports a timeout iff
`wakeup_thread` woke the thread during this call. Witness: from the call on, the event is set for
the thread iff the thread was woken.
-/
theorem timeout_iff_woken
    (reached
      : Reaches (Timing.step fuel) (fun timing event => timing.unsignalled event = true)
          (Timing.start program) timing)
    (hrun : timing.running = .access (.collectEvents events true) :: rest) (now : Instant)
    : ∃ timing',
        timing.step fuel (.exec now) = .ok timing'
        ∧ timing'.result timing.raw.currentThread
          = some
            (if timing.woken timing.raw.currentThread then
              .timeout (timing.toMemory.returned events true)
            else
              .events (timing.toMemory.returned events true)) := by
  have correct : timing.Correct :=
    reached.invariant Correct (start_correct program)
      fun _ _ _ correct ha ran => correct.step ha ran
  have executed
      : timing.toMachine.step fuel (.exec now)
        = .ok (timing.goOn (timing.toMemory.collectEvents events true) rest none) := by
    change timing.toMachine.exec fuel now = _
    unfold exec
    rw [hrun]
    rfl
  refine ⟨_, map_ok.mpr ⟨_, executed, rfl⟩, ?_⟩
  dsimp only
  rw [toMemory_goOn]
  refine (update_self _ _ _).trans ?_
  have told := correct.returned hrun
  change some (waitResult true (timing.toMemory.returned events true)) = _
  unfold waitResult
  congr 1
  simp only [Bool.true_and, bne_iff_ne, told]

/-- Thread 2 is started, makes a call, and is blocked in it after the given number of
instructions. The timer interrupt comes at time 5, when the deadline has expired.
-/
def expired (call : Call) (steps : Nat) : List Machine.Event :=
  .call (.start 2) :: List.replicate 26 (.exec 0)
    ++ .call call :: List.replicate steps (.exec 0)
    ++ [.fire 5, .call .wakeupScheduler, .exec 5, .finish]

set_option maxRecDepth 4000 in
/-- A wait for event 0 until time 5 times out. -/
theorem timeout_iff_woken_expired
    : let program : Program :=
        ⟨fun thread => .thread thread.toUInt8, fun _ => .interrupt 4, fun _ => .interrupt 3⟩
      let events := expired (.waitEventsUntil 1 5) 17 ++ List.replicate 15 (.exec 5)
      ∃ timing timing' : Timing,
        run (Timing.step 3) (Timing.start program) events = .ok timing
        ∧ timing.step 3 (.exec 5) = .ok timing'
        ∧ timing'.result 2 = some (.timeout Events.SCHEDULER_WAKEUP_EVENT) := by
  intro program events
  obtain ⟨timing, ran⟩
      : ∃ timing, run (Timing.step 3) (Timing.start program) events = .ok timing := by
    unfold program events
    exact ⟨_, rfl⟩
  have hrun : timing.running = [.access (.collectEvents 1 true), .user] :=
    view_of_ok (fun timing : Timing => timing.running) ran (by unfold program events; rfl)
  have seen
      : (timing.raw.currentThread, timing.woken timing.raw.currentThread,
          timing.toMemory.returned 1 true)
        = (2, true, Events.SCHEDULER_WAKEUP_EVENT) :=
    view_of_ok
      (fun timing : Timing =>
        (timing.raw.currentThread, timing.woken timing.raw.currentThread,
          timing.toMemory.returned 1 true))
      ran (by unfold program events; rfl)
  simp only [Prod.mk.injEq] at seen
  obtain ⟨current, woken, returned⟩ := seen
  have reached :=
    Reaches.run_allowed unsignalled .here (show _ = true by unfold program events; rfl) ran
  obtain ⟨timing', hs, result⟩ := timeout_iff_woken reached hrun 5
  rw [woken, returned, current] at result
  exact ⟨timing, timing', ran, hs, result⟩

set_option maxRecDepth 4000 in
/-- Thread 2 delays until time 5, and so has the wake-up event set. It is then sent event 0, for
which it waits until time 9: the wait returns at once, and reports a timeout although nobody woke
the thread in it.
-/
theorem timeout_of_earlier_delay
    : let program : Program :=
        ⟨fun thread => .thread thread.toUInt8, fun _ => .interrupt 4, fun _ => .interrupt 3⟩
      let events : List Machine.Event :=
        expired (.delayUntil 5) 15 ++ List.replicate 14 (.exec 5)
          ++ .fire 5 :: .call (.sendEvents 2 1) :: List.replicate 2 (.exec 5)
          ++ .finish :: List.replicate 4 (.exec 5)
          ++ .call (.waitEventsUntil 1 9) :: List.replicate 18 (.exec 5)
      ∃ timing timing' : Timing,
        run (Timing.step 3) (Timing.start program) events = .ok timing
        ∧ timing.running = [.access (.collectEvents 1 true), .user]
        ∧ timing.raw.currentThread = 2
        ∧ timing.woken 2 = false
        ∧ timing.step 3 (.exec 5) = .ok timing'
        ∧ timing'.result 2 = some (.timeout (Events.SCHEDULER_WAKEUP_EVENT ||| 1)) := by
  intro program events
  obtain ⟨timing, ran⟩
      : ∃ timing, run (Timing.step 3) (Timing.start program) events = .ok timing := by
    unfold program events
    exact ⟨_, rfl⟩
  have hrun : timing.running = [.access (.collectEvents 1 true), .user] :=
    view_of_ok (fun timing : Timing => timing.running) ran (by unfold program events; rfl)
  have seen : (timing.raw.currentThread, timing.woken 2) = (2, false) :=
    view_of_ok (fun timing : Timing => (timing.raw.currentThread, timing.woken 2)) ran
      (by unfold program events; rfl)
  simp only [Prod.mk.injEq] at seen
  have reported
      : (timing.step 3 (.exec 5)).map (fun timing => timing.result 2)
        = .ok (some (.timeout (Events.SCHEDULER_WAKEUP_EVENT ||| 1))) :=
    view_of_ok
      (fun timing : Timing => (timing.step 3 (.exec 5)).map fun timing => timing.result 2)
      ran (by unfold program events; rfl)
  obtain ⟨timing', hs, result⟩ := map_ok.mp reported
  exact ⟨timing, timing', ran, hrun, seen.1, seen.2, hs, result⟩

end Scars.Timing
