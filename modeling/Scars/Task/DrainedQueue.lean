import Scars.Task.BlockOn

/-! `block_on` between two waits.
It drains `pending_ready_queue` before it polls, and nothing that it does afterwards adds to the
queue.
-/

namespace Scars.Polling

open Runs

variable {state next : Polling} {fuel : Nat} {pending pending' : List TaskId} {event : PollEvent}

/-- The pending tasks were drained since the last wait returned. -/
def drained (state : Polling) : Bool :=
  match state.place with
  | .outside => false
  | .resuming rest => rest.isEmpty
  | _ => true

/-- The transfers that are left are those of `block_on`, the pending tasks last. -/
def InOrder (state : Polling) : Prop :=
  ∀ rest, state.place = .resuming rest → rest <:+ blockOnResumptions

/-- The executor stays in the order of `block_on`, and is past the drain only if it was before. -/
structure Proceeds (state next : Polling) : Prop where
  inOrder : next.InOrder
  drained : next.drained = true → state.drained = true

/-- What keeps the place of the executor. -/
theorem Proceeds.of_place (inOrder : state.InOrder) (place : next.place = state.place)
    : Proceeds state next := by
  constructor
  · unfold InOrder
    rw [place]
    exact inOrder
  · unfold Polling.drained
    rw [place]
    exact id

/-- The executor goes to its next poll, or waits. -/
theorem place_pollNext (polled : state.pollNext = .ok next)
    : ∀ rest, next.place ≠ .resuming rest := by
  obtain ⟨executor, -, polled⟩ := bind_ok.mp polled
  split at polled
  · cases polled
    simp
  · split at polled
    · cases polled
    · split at polled <;> cases polled <;> simp

/-- A step of `block_on` other than the drain. Witness: the drain is the last transfer. -/
theorem proceeds_advance (inOrder : state.InOrder) {clock : Nat → Instant}
    (other : ∀ rest, state.place ≠ .resuming (.pending :: rest))
    (advanced : state.advance fuel clock = .ok next)
    : Proceeds state next := by
  unfold advance at advanced
  split at advanced
  next resumption rest here =>
    obtain ⟨executor, -, he⟩ := bind_ok.mp advanced
    cases he
    have left := inOrder _ here
    refine ⟨fun rest he => ?_, fun drained => ?_⟩
    · cases he
      exact (List.suffix_cons _ _).trans left
    · have last : rest = [] := List.isEmpty_iff.mp drained
      subst last
      obtain ⟨before, split⟩ := left
      have ends := congrArg List.getLast? split
      rw [List.getLast?_concat] at ends
      cases ends
      exact absurd here (other [])
  next here =>
    have drained : state.drained = true := by simp [Polling.drained, here]
    split at advanced
    · obtain ⟨executor, -, he⟩ := bind_ok.mp advanced
      cases he
      exact ⟨by simp [InOrder], fun _ => drained⟩
    · cases advanced
      exact ⟨by simp [InOrder], fun _ => drained⟩
  next here =>
    exact ⟨fun rest place => absurd place (place_pollNext advanced rest),
      fun _ => by simp [Polling.drained, here]⟩
  · cases advanced

/-- A call into the executor does not move it. -/
theorem place_perform {op : TaskOp} (hp : state.perform fuel op = .ok next)
    : next.place = state.place := by
  cases op with
  | spawn task | dropHandle | wake task =>
      obtain ⟨executor, -, he⟩ := bind_ok.mp hp
      cases he
      rfl
  | sleepUntil deadline | waitForInterrupt =>
      unfold perform at hp
      dsimp only at hp
      split at hp
      · obtain ⟨executor, -, he⟩ := bind_ok.mp hp
        cases he
        rfl
      · cases hp

/-- No turn of the executor's thread but the drain brings it past the drain. -/
theorem proceeds_step (inOrder : state.InOrder) (isTurn : event.isTurn = true)
    (other : ∀ clock rest, event = .advance clock → state.place ≠ .resuming (.pending :: rest))
    (hs : state.step fuel event = .ok next)
    : Proceeds state next := by
  cases event with
  | blockOn task =>
      obtain ⟨-, returned⟩ := checked_ok.mp (show state.blockOn task = .ok next from hs)
      obtain ⟨executor, -, he⟩ := bind_ok.mp returned
      cases he
      refine ⟨fun rest he => ?_, fun drained => by cases drained⟩
      cases he
      exact List.suffix_rfl
  | advance clock => exact proceeds_advance inOrder (fun rest => other clock rest rfl) hs
  | op op =>
      unfold step at hs
      dsimp only at hs
      split at hs
      · exact .of_place inOrder (place_perform hs)
      · exact .of_place inOrder (place_perform hs)
      · cases hs
  | endPoll finished =>
      have ended : state.endPoll finished = .ok next := hs
      unfold endPoll at ended
      split at ended
      next here _ =>
        have drained : state.drained = true := by simp [Polling.drained, here]
        split at ended <;> cases ended <;> exact ⟨by simp [InOrder], fun _ => drained⟩
      next here _ =>
        cases ended
        exact ⟨by simp [InOrder], fun _ => by simp [Polling.drained, here]⟩
      · cases ended
  | poll kind => cases isTurn
  | wakeup => cases isTurn
  | wake task => cases isTurn

/-- After a turn of the executor's thread past the drain nothing is pending, or what was pending
past the drain before.
-/
theorem drains_turn (inOrder : state.InOrder) (isTurn : event.isTurn = true)
    (turned : state.turn fuel event pending = .ok (next, pending'))
    : next.InOrder
      ∧ (next.drained = true → pending' = [] ∨ state.drained = true ∧ pending' = pending) := by
  unfold turn at turned
  split at turned
  next rest here =>
    obtain ⟨executor, -, turned⟩ := bind_ok.mp turned
    split at turned
    · cases turned
      refine ⟨fun rest he => ?_, fun _ => .inl rfl⟩
      cases he
      exact (List.suffix_cons _ _).trans (inOrder _ here)
    · obtain ⟨executor, -, he⟩ := bind_ok.mp turned
      cases he
      refine ⟨inOrder, fun drained => ?_⟩
      simp [Polling.drained, here] at drained
  iterate 2
    · obtain ⟨resumed, resumes, he⟩ := bind_ok.mp turned
      cases he
      obtain ⟨executor, -, resumes⟩ := bind_ok.mp resumes
      obtain ⟨executor, -, he⟩ := bind_ok.mp resumes
      cases he
      exact ⟨inOrder, fun _ => .inl rfl⟩
  · cases turned
  next other _ _ =>
    obtain ⟨hs, steps, he⟩ := bind_ok.mp turned
    cases he
    have proceeds := proceeds_step inOrder isTurn other steps
    exact ⟨proceeds.inOrder, fun drained => .inr ⟨proceeds.drained drained, rfl⟩⟩

end Scars.Polling
