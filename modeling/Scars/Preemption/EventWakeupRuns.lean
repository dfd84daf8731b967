import Scars.Preemption.AttentiveWaits

/-! No event wake-up is lost, in every run in which waits consume nothing or all that they ask
for.
A wait that consumes a part of its events blocks even if one of them would be enough, and senders
look for all events in what was sent since.
-/

namespace Scars

open Memory Runs Machine

/-- The events are enough for the request: one of the requested ones, or all of them. -/
def Events.SatisfiedBy (request events : Events) : Prop :=
  if request.requireAll then
    events &&& request.withoutFlag = request.withoutFlag
  else
    events &&& request.withoutFlag ≠ 0

instance (request events : Events) : Decidable (request.SatisfiedBy events) :=
  inferInstanceAs
    (Decidable
      (if request.requireAll then
        events &&& request.withoutFlag = request.withoutFlag
      else
        events &&& request.withoutFlag ≠ 0))

/-- Senders notify for what satisfies a request, unless it asks for all of no events. -/
theorem sendCheck_of_satisfiedBy {set : EventSet} {request : Events}
    (waited : set.waitedEventsMask = request)
    (some : request.requireAll = true → request.withoutFlag ≠ 0)
    (satisfied : request.SatisfiedBy set.sentEventsMask)
    : set.sendCheck set.sentEventsMask = true := by
  unfold Events.SatisfiedBy at satisfied
  unfold EventSet.sendCheck EventSet.shouldNotify
  dsimp only
  rw [waited, BitVec.and_comm]
  split at satisfied
  next requireAll =>
    have wanted : (request.withoutFlag != 0) = true := bne_iff_ne.mpr (some requireAll)
    rw [satisfied, wanted]
    simp
  next anyOf =>
    have received : (set.sentEventsMask &&& request.withoutFlag != 0) = true :=
      bne_iff_ne.mpr satisfied
    rw [received, eq_false_of_ne_true anyOf]
    simp

namespace Machine

variable {machine : Machine} {program : Program} {fuel : Nat} {rest : List Instr}
  {thread : ThreadId} {events : Events}

/-- Whether a wait that consumes events in this step takes nothing, or all that it asks for. -/
def consumesWhole (machine : Machine) : Event → Bool
  | .exec _ =>
      match machine.running with
      | .locked (.consumeEvents events) :: _ =>
          let sent := (machine.raw.events machine.raw.currentThread).sentEventsMask
          sent &&& events.withoutFlag == 0
            || sent &&& events.withoutFlag == events.withoutFlag
      | _ => true
  | _ => true

theorem consumesWhole_iff {event : Event}
    : machine.consumesWhole event = true
      → machine.ConsumesWhole (fun _ _ => True) event := by
  rintro whole now events rest rfl hrun -
  simpa [consumesWhole, hrun] using whole

/-- Refused requests find their nodes free, and waits consume nothing or everything. -/
def keepsWakeups (machine : Machine) (event : Event) : Bool :=
  machine.parksFree event && machine.consumesWhole event

/-- In a run in which refused requests find their nodes free and waits consume nothing or all that
they ask for, a thread is blocked in `wait_events` or `wait_events_until` only as long as what it
consumed and what was sent since does not satisfy its request, or a request to resume it is under
way or about to be made by a sender. Witness: from the store of the request on, whatever is sent
and is enough is answered.
-/
theorem event_wakeup_not_lost
    (reached
      : Reaches (step fuel) (fun machine event => machine.keepsWakeups event = true)
          (start program) machine)
    {timed : Bool} (blocked : machine.raw.state thread = .blocked)
    (waits
      : machine.code thread
        = .access .clearWaitedEvents :: .access (.collectEvents events timed) :: rest)
    (satisfied
      : events.SatisfiedBy
          (machine.received thread ||| (machine.raw.events thread).sentEventsMask))
    : machine.ResumePending thread ∨ machine.Notifies thread := by
  have receiving : machine.Receiving fun _ _ => True :=
    reached.invariant (Receiving fun _ _ => True) (start_receiving program)
      fun _ _ _ receiving ha ran => by
        obtain ⟨free, whole⟩ := Bool.and_eq_true_iff.mp ha
        exact receiving.step ran (pushesFifo_of_parksFree free) (consumesWhole_iff whole)
  obtain ⟨waited, heeded, none, some⟩ :=
    receiving.attentive.blocked thread events timed rest trivial blocked waits
  rw [none] at satisfied
  refine heeded (sendCheck_of_satisfiedBy waited some ?_)
  simpa using satisfied

/-- Event 0 is sent to thread 2 while it is in a wait for event 0 or 1 and about to be blocked.
The request to resume it is parked, and thread 2 is blocked with the request under way.
-/
theorem event_wakeup_not_lost_deferred
    : let program : Program :=
        ⟨fun thread => .thread thread.toUInt8, fun _ => .interrupt 4, fun _ => .interrupt 3⟩
      let events : List Event :=
        .call (.start 2) :: List.replicate 26 (.exec 0)
          ++ .call (.waitEvents 3) :: List.replicate 5 (.exec 0)
          ++ .fire 5 :: .call (.sendEvents 2 1) :: List.replicate 3 (.exec 0)
          ++ .finish :: List.replicate 2 (.exec 0)
      ∃ machine : Machine,
        run (step 2) (start program) events = .ok machine
        ∧ machine.raw.state 2 = .blocked
        ∧ (machine.ResumePending 2 ∨ machine.Notifies 2) := by
  intro program events
  obtain ⟨machine, ran⟩
      : ∃ machine : Machine, run (step 2) (start program) events = .ok machine := by
    unfold program events
    exact ⟨_, rfl⟩
  have waits
      : machine.code 2
        = [.access .clearWaitedEvents, .access (.collectEvents 3 false), .user] :=
    view_of_ok (fun machine : Machine => machine.code 2) ran (by unfold program events; rfl)
  have seen
      : (machine.raw.state 2, machine.received 2 ||| (machine.raw.events 2).sentEventsMask)
        = (.blocked, 1) :=
    view_of_ok
      (fun machine : Machine =>
        (machine.raw.state 2, machine.received 2 ||| (machine.raw.events 2).sentEventsMask))
      ran (by unfold program events; rfl)
  simp only [Prod.mk.injEq] at seen
  have reached :=
    Reaches.run_allowed keepsWakeups .here (show _ = true by unfold program events; rfl) ran
  refine ⟨machine, ran, seen.1, event_wakeup_not_lost reached seen.1 waits ?_⟩
  rw [seen.2]
  decide

set_option maxRecDepth 4000 in
/-- Thread 2 is sent event 0 and then waits for event 0 or 1: the wait consumes event 0, which is
enough, and is blocked with nobody to resume it.
-/
theorem event_wakeup_lost
    : let program : Program :=
        ⟨fun thread => .thread thread.toUInt8, fun _ => .interrupt 4, fun _ => .interrupt 3⟩
      let events : List Event :=
        .call (.start 2) :: List.replicate 26 (.exec 0)
          ++ .fire 5 :: .call (.sendEvents 2 1) :: List.replicate 2 (.exec 0)
          ++ .finish :: List.replicate 4 (.exec 0)
          ++ .call (.waitEvents 3) :: List.replicate 17 (.exec 0)
      ∃ machine : Machine,
        run (step 2) (start program) events = .ok machine
        ∧ machine.frames = []
        ∧ machine.code 2
          = [.access .clearWaitedEvents, .access (.collectEvents 3 false), .user]
        ∧ machine.raw.state 2 = .blocked
        ∧ Events.SatisfiedBy 3 (machine.received 2 ||| (machine.raw.events 2).sentEventsMask)
        ∧ ¬ machine.ResumePending 2
        ∧ ¬ machine.Notifies 2 := by
  intro program events
  obtain ⟨machine, ran⟩
      : ∃ machine : Machine, run (step 2) (start program) events = .ok machine := by
    unfold program events
    exact ⟨_, rfl⟩
  have seen
      : (machine.frames, machine.code 1, machine.code 2, machine.raw.state 2,
          machine.received 2 ||| (machine.raw.events 2).sentEventsMask,
          (machine.pending.isEmpty .resume).1)
        = ([], [.user],
            [.access .clearWaitedEvents, .access (.collectEvents 3 false), .user], .blocked, 1,
            true) :=
    view_of_ok
      (fun machine : Machine =>
        (machine.frames, machine.code 1, machine.code 2, machine.raw.state 2,
          machine.received 2 ||| (machine.raw.events 2).sentEventsMask,
          (machine.pending.isEmpty .resume).1))
      ran (by unfold program events; rfl)
  simp only [Prod.mk.injEq] at seen
  obtain ⟨idle, first, second, blocked, received, empty⟩ := seen
  have reached :=
    Reaches.run_allowed (fun machine _ => decide (machine.raw.currentThread ∈ [1, 2]))
      .here (show _ = true by unfold program events; rfl) ran
  have quiet :=
    instr_of_listed
      (fun instr => instr.resumes ≠ some 2 ∧ ∀ sent, instr ≠ .access (.checkWaitedEvents 2 sent))
      reached (fun _ _ checked => of_decide_eq_true checked) idle (by simp [Instr.resumes])
      (by simp [first, second, Instr.resumes])
  refine ⟨machine, ran, idle, second, blocked, by rw [received]; decide, ?_, ?_⟩
  · rintro (⟨fifos, hr, hq⟩ | ⟨code, hasCode, instr, hm, resumes⟩)
    · rw [hr.items_of_isEmpty empty] at hq
      cases hq
    · exact (quiet code hasCode instr hm).1 resumes
  · rintro ⟨code, sent, hasCode, hm, -⟩
    exact (quiet code hasCode _ hm).2 sent rfl

end Machine

end Scars
