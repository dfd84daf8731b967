import Scars.Preemption.ResumeRequests

/-! Who will empty the pending queues.
A holder of the lock empties them when it releases its outermost section. A queue that is not
empty has such a holder, as long as nothing is deferred behind its back.
-/

namespace Scars

variable {memory memory' : Memory} {fuel : Nat} {now : Instant} {more rest : List Instr}
  {context : ExecutionContext} {instr : Instr} {queue : PendingQueue}

/-- The instructions that lead to an empty queue: the loop of `complete_pending`, and the
release of the section that found the lock free.
-/
def Instr.drains (queue : PendingQueue) : Instr → Bool
  | .drain other => other == queue
  | .release restoreState => restoreState.previous.isNone
  | _ => false

/-- The code still empties the queue. -/
def willDrain (queue : PendingQueue) (code : List Instr) : Bool := code.any (Instr.drains queue)

theorem drains_of_neutral (neutral : instr.isNeutral = true) : instr.drains queue = false := by
  cases instr <;> first | rfl | cases neutral

theorem willDrain_append {left right : List Instr}
    : willDrain queue (left ++ right) = (willDrain queue left || willDrain queue right) :=
  List.any_append

theorem Balanced.not_willDrain {code : List Instr} {borrowed : Bool}
    (balanced : Balanced 0 borrowed code)
    : willDrain queue code = false := by
  refine List.any_eq_false.mpr fun instr hm => ?_
  simp [drains_of_neutral (balanced.neutral instr hm)]

/-- A queue that was going to be emptied still is, unless this is a round of the loop. -/
theorem willDrain_perform (hp : instr.perform fuel now context memory = .ok (memory', more))
    (noRound : instr ≠ .drain queue) (ahead : willDrain queue (instr :: rest) = true)
    : willDrain queue (more ++ rest) = true := by
  rcases Bool.or_eq_true_iff.mp ahead with drains | ahead
  · cases instr with
    | drain other => exact absurd (by simpa [Instr.drains] using drains) noRound
    | release restoreState =>
        have outermost : restoreState.previous = none := by simpa [Instr.drains] using drains
        cases hp
        cases queue <;> simp [willDrain, releaseNestingLock, outermost, Instr.drains]
    | _ => cases drains
  · rw [willDrain_append]
    exact Bool.or_eq_true_iff.mpr (.inr ahead)

namespace Machine

variable {machine machine' : Machine}

/-- Some context of the stack still empties the queue. -/
def draining (queue : PendingQueue) (machine : Machine) : Bool :=
  machine.stack.any fun entry => willDrain queue entry.2

/-- The pending queues are intact, and every one with something in it will be emptied. -/
def WillBeEmpty (machine : Machine) : Prop :=
  ∃ fifos, Represents machine.pending fifos
    ∧ ∀ queue, fifos.items queue ≠ []
      → ∃ code, machine.HasCode code ∧ willDrain queue code = true

theorem hasCode_of_draining (drains : machine.draining queue = true)
    : ∃ code, machine.HasCode code ∧ willDrain queue code = true := by
  obtain ⟨⟨context, code⟩, hm, ahead⟩ := List.any_eq_true.mp drains
  refine ⟨code, hasCode_iff.mpr ?_, ahead⟩
  rcases mem_stack hm with ⟨frame, active, -, rfl⟩ | ⟨-, rfl⟩
  · exact Or.inl ⟨frame, active, rfl⟩
  · exact Or.inr ⟨_, rfl⟩

/-- A refused request is deferred only while its queue will still be emptied. -/
def defersInTime (machine : Machine) : Event → Bool
  | .exec _ =>
      match machine.running with
      | .tryWith body :: _ =>
          match body.defers with
          | some (queue, _) =>
              (tryAcquireNestingLock machine.preemptLock machine.context).isSome
                || machine.draining queue
          | none => true
      | _ => true
  | _ => true

/-- What is in the pending queues after an instruction: only a refused request, whose queue
will be emptied, and what was in there before. A round of the loop that finds nothing leaves
nothing in its queue.
-/
theorem pending_before {fifos : Fifos PendingQueue Suspendable}
    (hr : Represents machine.pending fifos) (inTime : machine.defersInTime (.exec now) = true)
    (free : machine.parksFree (.exec now) = true) (hrun : machine.running = instr :: rest)
    (hp : instr.perform fuel now machine.context machine.toMemory = .ok (memory, more))
    : ∃ fifos', Represents memory.pending fifos'
      ∧ ∀ queue, fifos'.items queue ≠ []
        → willDrain queue (more ++ rest) = true
          ∨ (fifos.items queue ≠ [] ∨ machine.draining queue = true) ∧ instr ≠ .drain queue := by
  cases Instr.perform_pending hp with
  | same pending noRound =>
      exact ⟨fifos, by rwa [pending], fun queue left => .inr ⟨.inl left, noRound queue⟩⟩
  | @deferred body other suspendable refused defers pushed _ =>
      have fifo : body.PushesFifo fuel machine.toMemory :=
        pushesFifo_of_parksFree free now body rest rfl hrun refused
      refine ⟨_, fifo _ _ _ _ hr defers pushed, fun queue left => .inr ⟨?_, nofun⟩⟩
      by_cases he : queue = other
      · subst he
        simp only [defersInTime, hrun, defers, refused, Option.isSome_none, Bool.false_or]
          at inTime
        exact .inr inTime
      · exact .inl (by simpa [Fifos.push, he] using left)
  | @drained other taken _ =>
      obtain ⟨none, hr'⟩ := hr.of_popFront taken
      refine ⟨_, hr', fun queue left => ?_⟩
      cases hq : fifos.items other with
      | nil =>
          simp only [Fifos.pop, hq] at left
          refine .inr ⟨.inl left, fun he => left ?_⟩
          cases he
          exact hq
      | cons first later => simp [Fifos.pop, hq] at none
  | @popped other suspendable taken goesOn =>
      obtain ⟨first, hr'⟩ := hr.of_popFront taken
      refine ⟨_, hr', fun queue left => ?_⟩
      by_cases he : queue = other
      · subst he goesOn
        exact .inl (by simp [willDrain, Instr.drains])
      · refine .inr ⟨.inl ?_, fun isRound => he (Instr.drain.inj isRound).symm⟩
        cases hq : fifos.items other with
        | nil => simpa [Fifos.pop, hq] using left
        | cons head later => simpa [Fifos.pop, hq, he] using left

/-- The queues stay intact, and whatever is in them will be taken out. Witness: a queue that had
something in it before was going to be emptied, and the loop gives it up only once it is empty.
-/
theorem WillBeEmpty.step (due : machine.WillBeEmpty) (hx : machine.Exclusive)
    {event : Event} (inTime : machine.defersInTime event = true)
    (free : machine.parksFree event = true) (hs : machine.step fuel event = .ok machine')
    : machine'.WillBeEmpty := by
  obtain ⟨fifos, hr, due⟩ := due
  cases step_ok hs with
  | @instr now instr rest more memory hrun hp =>
      obtain ⟨fifos', hr', before⟩ :=
        pending_before hr inTime free hrun hp
      refine ⟨fifos', by rwa [toMemory_goOn], fun queue left => ?_⟩
      rcases before queue left with ahead | ⟨was, noRound⟩
      · exact ⟨_, (hx.hasCode_goOn hrun hp).mpr (.inl rfl), ahead⟩
      · obtain ⟨code, rfl | other, ahead⟩ := was.elim (due queue) hasCode_of_draining
        · rw [hrun] at ahead
          exact ⟨_, (hx.hasCode_goOn hrun hp).mpr (.inl rfl),
            willDrain_perform hp noRound ahead⟩
        · exact ⟨code, (hx.hasCode_goOn hrun hp).mpr (.inr (.inl other)), ahead⟩
  | @restore _ frame below active ended =>
      refine ⟨fifos, hr, fun queue left => ?_⟩
      obtain ⟨code, rfl | other, ahead⟩ := due queue left
      · simp [Machine.running, active, ended, willDrain] at ahead
      · exact ⟨code, (otherCode_restore active).mp other, ahead⟩
  | @call call rest hrun ha =>
      refine ⟨fifos, by rwa [toMemory_setRunning], fun queue left => ?_⟩
      obtain ⟨code, rfl | other, ahead⟩ := due queue left
      · refine ⟨_, .inl rfl, ?_⟩
        rw [running_setRunning, willDrain_append]
        rw [hrun] at ahead
        rw [ahead, Bool.or_true]
      · exact ⟨code, .inr ((otherCode_setRunning machine code _).mpr other), ahead⟩
  | @finish rest hrun ha =>
      refine ⟨fifos, by rwa [toMemory_setRunning], fun queue left => ?_⟩
      obtain ⟨code, rfl | other, ahead⟩ := due queue left
      · refine ⟨_, .inl rfl, ?_⟩
        rw [running_setRunning]
        rw [hrun] at ahead
        exact ahead
      · exact ⟨code, .inr ((otherCode_setRunning machine code _).mpr other), ahead⟩
  | fire ha =>
      refine ⟨fifos, hr, fun queue left => ?_⟩
      obtain ⟨code, hasCode, ahead⟩ := due queue left
      exact ⟨code, hasCode_enter.mpr (.inr hasCode), ahead⟩

end Machine

end Scars
