import Scars.Preemption.Timeouts

/-! What the wake-up event tells during a wait with a deadline.
It is set iff `wakeup_thread` woke the thread since the call, and every instruction of any context
keeps that until the wait returns.
-/

namespace Scars

open Memory Runs Function

/-- The machine, and which threads `wakeup_thread` woke since they last called
`wait_events_until`.
-/
structure Timing extends Machine where
  woken : ThreadId → Bool

namespace Timing

def start (program : Program) : Timing where
  toMachine := Machine.start program
  woken := fun _ => false

/-- Who was woken after a step: a reschedule wakes the threads that it takes out of the sleep
queue.
-/
def record (timing : Timing) (next : Machine) : Machine.Event → ThreadId → Bool
  | .call (.waitEventsUntil _ _) =>
      update timing.woken timing.raw.currentThread false
  | .exec _ =>
      match timing.running with
      | .locked (.run (.reschedule _)) :: _ =>
          fun thread =>
            timing.woken thread
              || timing.raw.inSleepQueue (.thread thread)
                && !next.raw.inSleepQueue (.thread thread)
      | _ => timing.woken
  | _ => timing.woken

def step (fuel : Nat) (timing : Timing) (event : Machine.Event) : Except Fault Timing :=
  (timing.toMachine.step fuel event).map fun next =>
    { toMachine := next, woken := timing.record next event }

/-- The wake-up event is left to the scheduler, and is not set when a wait with a deadline is
called.
-/
def unsignalled (timing : Timing) : Machine.Event → Bool
  | .call (.sendEvents _ events) => events &&& Events.SCHEDULER_WAKEUP_EVENT == 0
  | .call (.waitEventsUntil events _) =>
      events &&& Events.SCHEDULER_WAKEUP_EVENT == 0
        && (timing.raw.events timing.raw.currentThread).sentEventsMask
          &&& Events.SCHEDULER_WAKEUP_EVENT == 0
  | _ => true

variable {timing timing' : Timing} {program : Program} {memory : Memory} {fuel : Nat}
  {now : Instant} {more rest code : List Instr} {instr : Instr} {thread : ThreadId}
  {events : Events} {woken : ThreadId → Bool} {memory' : Memory}

/-- The wake-up event of the thread tells whether it was woken, and is no other event of its
wait.
-/
structure Tells (memory : Memory) (woken : ThreadId → Bool) (thread : ThreadId)
    (events : Events) : Prop where
  apart : events &&& Events.SCHEDULER_WAKEUP_EVENT = 0
  received : memory.received thread &&& Events.SCHEDULER_WAKEUP_EVENT = 0
  signalled : memory.raw.Signalled thread ↔ woken thread = true

structure Correct (timing : Timing) : Prop where
  exclusive : timing.toMachine.Exclusive
  settled : timing.toMachine.Settled
  serving : timing.toMachine.Serving
  consuming : timing.toMachine.Consuming
  trailing : ∀ code, timing.toMachine.HasCode code → Trailing code
  sends
    : ∀ code,
        timing.toMachine.HasCode code
        → ∀ receiver events,
            .access (.sendEvents receiver events) ∈ code
            → events &&& Events.SCHEDULER_WAKEUP_EVENT = 0
  timed
    : ∀ thread events,
        .access (.collectEvents events true) ∈ timing.code thread
        → Tells timing.toMemory timing.woken thread events

theorem start_correct (program : Program) : (Timing.start program).Correct where
  exclusive := Machine.start_exclusive program
  settled := Machine.start_settled program
  serving := Machine.start_serving program
  consuming := Machine.start_consuming program
  trailing code hasCode := by
    rw [Machine.start_hasCode program hasCode]
    exact .of_none (List.forall_mem_singleton.mpr rfl)
  sends code hasCode receiver events hm := by
    rw [Machine.start_hasCode program hasCode] at hm
    cases List.mem_singleton.mp hm
  timed thread events hm := by cases List.mem_singleton.mp hm

theorem record_other {next : Machine} (hrun : timing.running = instr :: rest)
    (other : ∀ kind, instr ≠ .locked (.run (.reschedule kind)))
    : timing.record next (.exec now) = timing.woken := by
  unfold record
  dsimp only
  rw [hrun]
  split
  next kind _ he => cases he; exact absurd rfl (other kind)
  · rfl

theorem Tells.of_silent (tells : Tells memory woken thread events)
    (silent : memory.raw.Silent memory'.raw) (received : memory'.received = memory.received)
    : Tells memory' woken thread events where
  apart := tells.apart
  received := by rw [received]; exact tells.received
  signalled := (silent thread).trans tells.signalled

theorem Tells.elsewhere {set : EventSet} {value : Events} (tells : Tells memory woken thread events)
    (other : thread ≠ memory.raw.currentThread)
    (raw : memory'.raw = memory.raw.setEvents memory.raw.currentThread set)
    (received
      : memory'.received = update memory.received memory.raw.currentThread value)
    : Tells memory' woken thread events := by
  refine ⟨tells.apart, ?_, Iff.trans ?_ tells.signalled⟩
  · rw [received, update_of_ne other]
    exact tells.received
  · rw [raw]
    unfold Kernel.Signalled
    change (update memory.raw.events _ set thread).sentEventsMask &&& _ ≠ 0 ↔ _
    rw [update_of_ne other]

theorem Tells.consume (tells : Tells memory woken memory.raw.currentThread events)
    (raw : memory'.raw = (memory.raw.consumeEvents events).2)
    (received
      : memory'.received
        = update memory.received memory.raw.currentThread
          (memory.raw.consumeEvents events).1)
    : Tells memory' woken memory.raw.currentThread events := by
  have apart := withoutFlag_apart tells.apart
  refine ⟨tells.apart, ?_, Iff.trans ?_ tells.signalled⟩
  · rw [received, update_self]
    unfold Kernel.consumeEvents EventSet.readAndClearMatchingSentEvents
    rw [BitVec.and_assoc, apart]
    exact BitVec.and_zero
  · rw [raw]
    refine Kernel.silent_setEvents ?_ _
    dsimp only
    ext index bound
    have bit := congrArg (fun events => BitVec.getLsbD events index) apart
    simp only [BitVec.getLsbD_and, BitVec.getLsbD_zero, BitVec.ofNat_eq_ofNat] at bit
    grind

theorem Correct.asked (correct : timing.Correct) {asked : Events} {timed : Bool}
    (waits
      : timing.code thread
        = .access .clearWaitedEvents :: .access (.collectEvents asked timed) :: rest)
    (hm : .access (.collectEvents events true) ∈ timing.code thread)
    : asked = events := by
  have trailing := correct.trailing _ (timing.hasCode_thread thread)
  rw [waits] at trailing hm
  simp only [List.mem_cons, reduceCtorEq, false_or, Instr.access.injEq,
    Access.collectEvents.injEq] at hm
  rcases hm with ⟨he, -⟩ | later
  · exact he.symm
  · cases trailing.2.1 rfl _ later

section

variable (correct : timing.Correct) (hrun : timing.running = instr :: rest)
  (hp
    : instr.perform fuel now timing.context timing.toMemory = .ok (memory, more))

include correct hrun hp

/-- Until a wait returns, every instruction of any context keeps what the wake-up event tells. -/
theorem Correct.tells_perform {next : Machine} (he : next.toMemory = memory)
    (hm : .access (.collectEvents events true) ∈ timing.code thread)
    (inside
      : thread = timing.raw.currentThread
        → ∀ asked timed, instr ≠ .access (.collectEvents asked timed))
    : Tells memory (timing.record next (.exec now)) thread events := by
  have tells := correct.timed thread events hm
  by_cases isReschedule : ∃ kind, instr = .locked (.run (.reschedule kind))
  · obtain ⟨kind, rfl⟩ := isReschedule
    have hc : timing.raw.Consistent :=
      correct.settled.listed_locked correct.exclusive hrun
    obtain ⟨raw, rescheduled, rfl, -⟩ := withRaw_ok hp
    refine ⟨tells.apart, tells.received, ?_⟩
    rw [hc.signalled_reschedule rescheduled, tells.signalled]
    simp only [record, hrun, he, Kernel.inSleepQueue]
    simp
  · rw [record_other hrun (not_exists.mp isReschedule)]
    by_cases isConsume : ∃ asked, instr = .locked (.consumeEvents asked)
    · obtain ⟨asked, rfl⟩ := isConsume
      obtain ⟨timed, left, waits⟩ := correct.serving.current hrun rfl
      cases hp
      by_cases isCurrent : thread = timing.raw.currentThread
      · subst isCurrent
        cases correct.asked waits hm
        exact tells.consume rfl rfl
      · exact tells.elsewhere isCurrent rfl rfl
    · by_cases isReturn : ∃ asked timed, instr = .access (.collectEvents asked timed)
      · obtain ⟨asked, timed, rfl⟩ := isReturn
        cases hp
        exact tells.elsewhere (fun isCurrent => inside isCurrent asked timed rfl) rfl rfl
      · simp only [not_exists] at isReschedule isConsume isReturn
        have sends (receiver : ThreadId) (events : Events)
            (isSend : instr = .access (.sendEvents receiver events))
            : events &&& Events.SCHEDULER_WAKEUP_EVENT = 0 :=
          correct.sends _ (Or.inl rfl) receiver events (by simp [hrun, isSend])
        obtain ⟨silent, received⟩ :=
          Instr.perform_silent hp isReschedule isConsume isReturn sends
        exact tells.of_silent silent received

/-- The end of a wait with a deadline is left because the thread has not come to it. -/
theorem Correct.waits_goOn
    (hm
      : .access (.collectEvents events true)
        ∈ (timing.goOn memory (more ++ rest) instr.enters).code thread)
    : .access (.collectEvents events true) ∈ timing.code thread
      ∧ (thread = timing.raw.currentThread
        → ∀ asked timed, instr ≠ .access (.collectEvents asked timed)) := by
  rw [Machine.code_goOn] at hm
  cases frames : timing.frames with
  | cons top below =>
      rw [Machine.code_setRunning_of_frame frames] at hm
      refine ⟨hm, fun _ asked timed he => ?_⟩
      rw [Machine.running_of_frame frames] at hrun
      have inFrame := correct.consuming.ended top (by simp [frames]) instr (by simp [hrun])
      rw [he] at inFrame
      cases inFrame
  | nil =>
      rw [Machine.code_setRunning_of_thread frames] at hm
      by_cases isCurrent : thread = timing.raw.currentThread
      · subst isCurrent
        rw [update_self] at hm
        have trailing := correct.trailing _ (Or.inl hrun.symm)
        obtain ⟨leads, old⟩ := trailing.timed hp hm
        rw [Machine.running_of_thread frames] at hrun
        refine ⟨by simp [hrun, old], fun _ asked timed he => ?_⟩
        rw [he] at leads
        cases leads
      · rw [update_of_ne isCurrent] at hm
        exact ⟨hm, fun he => absurd he isCurrent⟩

end

end Timing

end Scars
