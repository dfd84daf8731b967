import Scars.Foundation.Outcome
import Scars.Sync.Exchange
import Scars.Sync.Rendezvous

/-! The rendezvous performs the exchange.
Each step of a thread is a step of its party in the exchange or happens inside one stage; a
slot that was found full is emptied by nobody else.
-/

namespace Scars

open Runs
open Exchange (CallStage AnswerStage)
open Monitor (WaitLoop)
open Outcome (Meets)

variable {A R V : Type}

/-- The stage of the exchange that a place in `Entry::entry` belongs to. -/
def EntryPlace.stage : EntryPlace A R → CallStage A R
  | outside => .idle
  | lockingArg arg => .offering arg
  | providing arg => .offering arg
  | unlockingArg => .waiting
  | notifying => .waiting
  | lockingResult => .waiting
  | looping _ => .waiting
  | taking => .waiting
  | unlockingResult result => .returning result

/-- The stage of the exchange that a place in `Accept::accept` belongs to. -/
def AcceptPlace.stage : AcceptPlace A R → AnswerStage A R
  | outside => .idle
  | lockingArg closure => .asking closure
  | looping closure _ => .asking closure
  | taking closure => .asking closure
  | unlockingArg closure arg => .computing closure arg
  | computing closure arg => .computing closure arg
  | lockingResult result => .answering result
  | providing result => .answering result
  | unlockingResult => .idle
  | notifying => .idle

namespace RendezvousSlot

variable {slot : RendezvousSlot V} {party : RendezvousParty}

theorem meets_acquire (owner : Option RendezvousParty)
    : Meets (fun _ => True) (· ≠ .unwrapNone)
        (Monitor.acquire party Fault.notCallable owner) := by
  cases owner with
  | none => trivial
  | some other => exact Fault.noConfusion

theorem meets_lock
    : Meets (fun next => next.value = slot.value) (· ≠ .unwrapNone) (slot.lock party) :=
  (meets_acquire slot.owner).bind fun _ _ => rfl

theorem meets_loopStep (loop : WaitLoop)
    : Meets
        (fun outcome =>
          outcome.2.value = slot.value ∧ (outcome.1 = none → slot.value.isSome = true))
        (· ≠ .unwrapNone) (slot.loopStep party loop) := by
  have step
      : Meets (fun outcome => outcome.1 = none → slot.value.isNone = false) (· ≠ .unwrapNone)
          (loop.step party Fault.notCallable slot.value.isNone slot.owner) := by
    cases loop with
    | testing =>
        intro leaves
        cases blocked : slot.value.isNone with
        | false => rfl
        | true => simp [blocked] at leaves
    | unlocking => exact nofun
    | waiting => exact nofun
    | relocking => exact (meets_acquire slot.owner).bind fun _ _ => nofun
  exact step.bind fun outcome passes => ⟨rfl, fun leaves => by simpa using passes leaves⟩

/-- `unwrap` of a slot that was seen full returns its value. -/
theorem meets_take (seen : slot.value.isSome = true)
    : Meets (fun outcome => slot.value = some outcome.1 ∧ outcome.2.value = none)
        (· ≠ Fault.unwrapNone) slot.take := by
  unfold take
  split
  next here => exact ⟨here, rfl⟩
  next empty =>
    rw [empty] at seen
    cases seen

end RendezvousSlot

namespace Rendezvous

variable {state next : Rendezvous A R} {event : RendezvousEvent A R} {result : RendezvousSlot R}
  {arg : RendezvousSlot A}

/-- The state of the exchange behind the places and the locks. -/
def exchange (state : Rendezvous A R) : Exchange.State A R where
  arg := state.arg.value
  result := state.result.value
  call := state.entry.stage
  answer := state.accept.stage
  entered := state.entered
  accepted := state.accepted
  consumed := state.consumed
  returned := state.returned

/-- A thread about to take a value has seen that there is one. -/
structure Seen (state : Rendezvous A R) : Prop where
  result : state.entry = .taking → state.result.value.isSome = true
  arg : ∀ closure, state.accept = .taking closure → state.arg.value.isSome = true

/-- A step of the exchange, or of a thread inside one stage. -/
def Advances (state next : Rendezvous A R) : Prop :=
  next.exchange = state.exchange ∨ Exchange.Steps state.exchange next.exchange

/-- What a step of the thread in `entry` does. -/
structure EntryStep (state next : Rendezvous A R) : Prop where
  advances : Advances state next
  accept : next.accept = state.accept
  arg : state.arg.value.isSome = true → next.arg.value.isSome = true
  result : next.entry = .taking → next.result.value.isSome = true

/-- What a step of the thread in `accept` does. -/
structure AcceptStep (state next : Rendezvous A R) : Prop where
  advances : Advances state next
  entry : next.entry = state.entry
  result : state.result.value.isSome = true → next.result.value.isSome = true
  arg : ∀ closure, next.accept = .taking closure → next.arg.value.isSome = true

/-- A step inside of one stage keeps the values. -/
theorem EntryStep.inside {entry : EntryPlace A R} (sameArg : arg.value = state.arg.value)
    (sameResult : result.value = state.result.value) (stage : entry.stage = state.entry.stage)
    (seen : entry = .taking → state.result.value.isSome = true)
    : EntryStep state { state with arg, result, entry } where
  advances := .inl (by simp [exchange, sameArg, sameResult, stage])
  accept := rfl
  arg filled := by rwa [sameArg]
  result here := by rw [sameResult]; exact seen here

theorem AcceptStep.inside {accept : AcceptPlace A R} (sameArg : arg.value = state.arg.value)
    (sameResult : result.value = state.result.value) (stage : accept.stage = state.accept.stage)
    (seen : ∀ closure, accept = .taking closure → state.arg.value.isSome = true)
    : AcceptStep state { state with arg, result, accept } where
  advances := .inl (by simp [exchange, sameArg, sameResult, stage])
  entry := rfl
  result filled := by rwa [sameResult]
  arg closure here := by rw [sameArg]; exact seen closure here

/-- One case for each place in `Entry::entry`. -/
theorem Seen.meets_advanceEntry (seen : Seen state)
    : Meets (EntryStep state) (· ≠ .unwrapNone) state.advanceEntry := by
  unfold advanceEntry
  split
  · exact Fault.noConfusion
  next value here =>
    exact RendezvousSlot.meets_lock.bind fun arg kept =>
      .inside kept rfl (by rw [here]; rfl) (by simp)
  next value here =>
    have offering : state.exchange.call = .offering value := congrArg EntryPlace.stage here
    exact ⟨.inr (.offers offering), rfl, fun _ => rfl, by simp⟩
  next here => exact .inside rfl rfl (by rw [here]; rfl) (by simp)
  next here => exact .inside rfl rfl (by rw [here]; rfl) (by simp)
  next here =>
    exact RendezvousSlot.meets_lock.bind fun result kept =>
      .inside rfl kept (by rw [here]; rfl) (by simp)
  next loop here =>
    refine (RendezvousSlot.meets_loopStep loop).bind fun outcome passed => ?_
    obtain ⟨following, result⟩ := outcome
    obtain ⟨kept, leaves⟩ := passed
    cases following with
    | some loop => exact .inside rfl kept (by rw [here]; rfl) (by simp)
    | none => exact .inside rfl kept (by rw [here]; rfl) fun _ => leaves rfl
  next here =>
    have waiting : state.exchange.call = .waiting := congrArg EntryPlace.stage here
    refine (RendezvousSlot.meets_take (seen.result here)).bind fun outcome taken => ?_
    obtain ⟨value, result⟩ := outcome
    obtain ⟨found, emptied⟩ : _ ∧ result.value = none := taken
    refine ⟨.inr ?_, rfl, id, by simp⟩
    simpa [exchange, emptied, EntryPlace.stage] using Exchange.Steps.takes waiting found
  next value here =>
    have returning : state.exchange.call = .returning value := congrArg EntryPlace.stage here
    exact ⟨.inr (.returns returning), rfl, id, by simp⟩

/-- One case for each place in `Accept::accept`. -/
theorem Seen.meets_advanceAccept (seen : Seen state)
    : Meets (AcceptStep state) (· ≠ .unwrapNone) state.advanceAccept := by
  unfold advanceAccept
  split
  · exact Fault.noConfusion
  next closure here =>
    exact RendezvousSlot.meets_lock.bind fun arg kept =>
      .inside kept rfl (by rw [here]; rfl) (by simp)
  next closure loop here =>
    refine (RendezvousSlot.meets_loopStep loop).bind fun outcome passed => ?_
    obtain ⟨following, arg⟩ := outcome
    obtain ⟨kept, leaves⟩ := passed
    cases following with
    | some loop => exact .inside kept rfl (by rw [here]; rfl) (by simp)
    | none => exact .inside kept rfl (by rw [here]; rfl) fun _ _ => leaves rfl
  next closure here =>
    have asking : state.exchange.answer = .asking closure := congrArg AcceptPlace.stage here
    refine (RendezvousSlot.meets_take (seen.arg closure here)).bind fun outcome taken => ?_
    obtain ⟨value, arg⟩ := outcome
    obtain ⟨found, emptied⟩ : _ ∧ arg.value = none := taken
    refine ⟨.inr ?_, rfl, id, by simp⟩
    simpa [exchange, emptied, AcceptPlace.stage] using Exchange.Steps.consumes asking found
  next closure value here => exact .inside rfl rfl (by rw [here]; rfl) (by simp)
  next closure value here =>
    have computing : state.exchange.answer = .computing closure value :=
      congrArg AcceptPlace.stage here
    exact ⟨.inr (.computes computing), rfl, id, by simp⟩
  next value here =>
    exact RendezvousSlot.meets_lock.bind fun result kept =>
      .inside rfl kept (by rw [here]; rfl) (by simp)
  next value here =>
    have answering : state.exchange.answer = .answering value := congrArg AcceptPlace.stage here
    exact ⟨.inr (.answers answering), rfl, fun _ => rfl, by simp⟩
  next here => exact .inside rfl rfl (by rw [here]; rfl) (by simp)
  next here => exact .inside rfl rfl (by rw [here]; rfl) (by simp)

/-- Every step belongs to one of the two threads, and none unwraps a missing value. -/
theorem Seen.meets_step (seen : Seen state) (event : RendezvousEvent A R)
    : Meets (fun next => EntryStep state next ∨ AcceptStep state next) (· ≠ .unwrapNone)
        (state.step event) := by
  cases event with
  | callEntry arg =>
      unfold Rendezvous.step
      dsimp only
      split
      next here =>
        have idle : state.exchange.call = .idle := congrArg EntryPlace.stage here
        exact .inl ⟨.inr (.calls idle), rfl, id, nofun⟩
      · exact Fault.noConfusion
  | callAccept closure =>
      unfold Rendezvous.step
      dsimp only
      split
      next here =>
        have idle : state.exchange.answer = .idle := congrArg AcceptPlace.stage here
        exact .inr ⟨.inr (.accepts idle), rfl, id, nofun⟩
      · exact Fault.noConfusion
  | advance party =>
      cases party with
      | entry => exact seen.meets_advanceEntry.mono fun _ => Or.inl
      | accept => exact seen.meets_advanceAccept.mono fun _ => Or.inr

/-- The exchange is paired, and whoever is about to take a value has seen it. -/
structure Invariant (state : Rendezvous A R) : Prop where
  paired : Exchange.Paired state.exchange
  seen : Seen state

theorem invariant_start : Invariant (start : Rendezvous A R) where
  paired := Exchange.paired_start
  seen := ⟨nofun, nofun⟩

/-- A value that one thread has seen stays, since the other thread only ever adds one. -/
theorem Seen.step (seen : Seen state) (hs : EntryStep state next ∨ AcceptStep state next)
    : Seen next := by
  rcases hs with hs | hs
  · refine ⟨hs.result, fun closure here => hs.arg (seen.arg closure ?_)⟩
    rw [← hs.accept]
    exact here
  · refine ⟨fun here => hs.result (seen.result ?_), hs.arg⟩
    rw [← hs.entry]
    exact here

/-- A step of either side is one of the exchange, or none. -/
theorem Invariant.step (invariant : Invariant state)
    (hs : EntryStep state next ∨ AcceptStep state next)
    : Invariant next := by
  refine ⟨?_, invariant.seen.step hs⟩
  have advances : Advances state next := hs.elim EntryStep.advances AcceptStep.advances
  rcases advances with he | exchanged
  · rw [he]
    exact invariant.paired
  · exact invariant.paired.step exchanged

/-- The results that `entry` returned are those of the consumed arguments in order, and each
argument is consumed by the closure of the same number, once. An argument or result is
provided only into an empty slot, and no missing value is unwrapped. Witness: the rendezvous
performs the exchange, which pairs.
-/
theorem rendezvous_pairs (state : Rendezvous A R)
    (reached : Reaches step (fun _ _ => True) start state)
    : state.returned <+: List.zipWith (fun arg closure => closure arg) state.entered state.accepted
      ∧ state.consumed <+: state.entered.zip state.accepted
      ∧ state.returned <+: state.consumed.map (fun round => round.2 round.1)
      ∧ (∀ arg, state.entry = .providing arg → state.arg.value = none)
      ∧ (∀ result, state.accept = .providing result → state.result.value = none)
      ∧ ∀ event, state.step event ≠ .error .unwrapNone := by
  have invariant : Invariant state :=
    reached.invariant Invariant invariant_start
      fun _ _ _ invariant _ hs => invariant.step ((invariant.seen.meets_step _).of_ok hs)
  have consumed := invariant.paired.consumed_isPrefix
  have returned := invariant.paired.returned_isPrefix
  refine ⟨?_, consumed, returned, fun arg here => ?_, fun result here => ?_,
    fun event failed => (invariant.seen.meets_step event).of_error failed rfl⟩
  · have applied := returned.trans (consumed.map fun round => round.2 round.1)
    rwa [List.map_zip_eq_zipWith] at applied
  · exact invariant.paired.arg_of_offering (congrArg EntryPlace.stage here)
  · exact invariant.paired.result_of_answering (congrArg AcceptPlace.stage here)

/-- A round in which `accept` waits before the argument comes, and wakes once for nothing. -/
def wokenRound : List (RendezvousEvent Nat Nat) :=
  [.callAccept (· + 1), .advance .accept, .advance .accept, .advance .accept, .advance .accept,
    .advance .accept, .advance .accept, .advance .accept, .callEntry 4, .advance .entry,
    .advance .entry, .advance .entry, .advance .accept, .advance .accept, .advance .accept,
    .advance .accept, .advance .accept, .advance .accept, .advance .accept, .advance .accept,
    .advance .entry, .advance .accept, .advance .entry, .advance .entry, .advance .entry,
    .advance .entry]

theorem rendezvous_pairs_woken
    : ∃ state : Rendezvous Nat Nat, run step start wokenRound = .ok state
        ∧ state.returned = [5]
        ∧ state.returned
          <+: List.zipWith (fun arg closure => closure arg) state.entered state.accepted := by
  obtain ⟨state, ran⟩ : ∃ state : Rendezvous Nat Nat, run step start wokenRound = .ok state :=
    ⟨_, rfl⟩
  have returned : state.returned = [5] :=
    view_of_ok (fun state : Rendezvous Nat Nat => state.returned) ran rfl
  have reached : Reaches step (fun _ _ => True) start state :=
    Reaches.here.run (fun _ _ _ => trivial) ran
  exact ⟨state, ran, returned, (rendezvous_pairs state reached).1⟩

end Rendezvous

end Scars
