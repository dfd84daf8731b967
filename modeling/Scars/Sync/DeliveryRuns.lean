import Scars.Sync.Delivery

/-! Every accepted item is delivered once and in order.
Only the context that owns the mutex changes the FIFO, so what its test found still holds
when it moves an item. What its call returns is decided there, while it has the guard.
-/

namespace Scars

open Runs

variable {κ T : Type} {fifo : Fifo T} {items : List T}

/-- A receiver can proceed exactly if there is an item. -/
theorem Fifo.Holds.receivable (holds : fifo.Holds items) (receives : call.side = .receivers)
    : fifo.blocks call = false ↔ items ≠ [] := by
  simp [blocks, receives, isEmpty, holds.used]

/-- A sender can proceed exactly if there is room. -/
theorem Fifo.Holds.sendable (holds : fifo.Holds items) (sends : call.side = .senders)
    : fifo.blocks call = false ↔ items.length < fifo.capacity := by
  have room := holds.room
  simp [blocks, sends, isFull, holds.used]
  omega

/-- Only a call that does not wait tests once, and a call that moves an item can do so. -/
def DeliveryPlace.Ready (fifo : Fifo T) : DeliveryPlace T → Prop
  | .trying call => call.waits = false
  | .moving call => fifo.blocks call = false
  | _ => True

/-- A context that is about to return has the guard. -/
theorem DeliveryPlace.answer_of_outside {place : DeliveryPlace T} (outside : place.inside = false)
    : place.answer = none := by
  cases place <;> first | rfl | cases outside

namespace Delivery

variable [DecidableEq κ] {state next : Delivery κ T} {context : κ} {event : DeliveryEvent κ T}

/-- How a context that goes on at another place keeps, takes or gives back the mutex. -/
def Handover (context : κ) (before after : DeliveryPlace T) (owner owner' : Option κ) : Prop :=
  (owner' = owner ∧ after.inside = before.inside)
  ∨ (owner = none ∧ owner' = some context ∧ after.inside = true)
  ∨ (before.inside = true ∧ owner' = none ∧ after.inside = false)

/-- A step goes on elsewhere in the call, decides what the call returns, or returns it. -/
inductive Steps (state : Delivery κ T) : Delivery κ T → Prop
  | goes {context place owner}
    (handover : Handover context (state.place context) place state.owner owner)
    (ready : place.Ready state.fifo) (silent : place.answer = (state.place context).answer)
    : Steps state { state.goOn context place with owner }
  | refuses {context call} (here : state.place context = .trying call)
    : Steps state (state.goOn context (.unlocking call call.refusal))
  | pops {context call item fifo} (here : state.place context = .moving call)
    (receives : call.side = .receivers) (popped : state.fifo.pop = .ok (some item, fifo))
    : Steps state { state.goOn context (.notifying call (.received item)) with fifo }
  | pushes {context call item} (here : state.place context = .moving call)
    (sends : ChannelAnswer.accepted (call, .sent) = some item)
    : Steps state { state.goOn context (.notifying call .sent) with
        fifo := (state.fifo.push item).2 }
  | returns {context call result} (here : state.place context = .unlocking call result)
    : Steps state { state.goOn context .outside with
        owner := none, returned := state.returned ++ [(call, result)] }

variable {place : DeliveryPlace T} {answer : ChannelAnswer T} {call : ChannelCall T}

/-- A step that leaves the mutex alone. -/
theorem Steps.keeps (he : place.inside = (state.place context).inside)
    (ready : place.Ready state.fifo) (silent : place.answer = (state.place context).answer)
    : Steps state (state.goOn context place) :=
  .goes (.inl ⟨rfl, he⟩) ready silent

/-- The step that pops or pushes an item. -/
theorem move_ok (here : state.place context = .moving call)
    (moved : state.move context call = .ok next)
    : Steps state next := by
  cases call with
  | recv | tryRecv =>
      obtain ⟨⟨popped, fifo⟩, taken, rest⟩ := bind_ok.mp moved
      cases popped with
      | none => cases rest
      | some item =>
          cases rest
          exact .pops here rfl taken
  | send item | trySend item =>
      cases moved
      exact .pushes here rfl

/-- The step of a context inside a call, one case for each place. -/
theorem advance_ok (advanced : state.advance context = .ok next) : Steps state next := by
  unfold advance at advanced
  cases here : state.place context with
  | outside => simp [here] at advanced
  | locking call =>
      simp only [here] at advanced
      obtain ⟨owner, acquired, he⟩ := bind_ok.mp advanced
      obtain ⟨free, rfl⟩ := Monitor.acquire_ok acquired
      cases he
      cases waits : call.waits with
      | false => exact .goes (.inr (.inl ⟨free, rfl, rfl⟩)) waits (by rw [here]; rfl)
      | true => exact .goes (.inr (.inl ⟨free, rfl, rfl⟩)) trivial (by rw [here]; rfl)
  | looping call loop =>
      simp only [here] at advanced
      obtain ⟨⟨following, owner⟩, looped, he⟩ := bind_ok.mp advanced
      have turned := Monitor.WaitLoop.step_ok looped
      have moved := turned.moved
      cases he
      cases following with
      | none => exact .goes (by rw [Handover, here]; exact moved) turned.passes (by rw [here]; rfl)
      | some loop => exact .goes (by rw [Handover, here]; exact moved) trivial (by rw [here]; rfl)
  | trying call =>
      simp only [here] at advanced
      split at advanced
      next blocked =>
        cases advanced
        exact .refuses here
      next passes =>
        cases advanced
        have ready : state.fifo.blocks call = false := by simpa using passes
        exact .keeps (by rw [here]; rfl) ready (by rw [here]; rfl)
  | moving call =>
      simp only [here] at advanced
      exact move_ok here advanced
  | notifying call result =>
      simp only [here] at advanced
      cases advanced
      exact .keeps (by rw [here]; rfl) trivial (by rw [here]; rfl)
  | unlocking call result =>
      simp only [here] at advanced
      cases advanced
      exact .returns here

/-- What a step can do. -/
theorem step_ok (hs : state.step event = .ok next) : Steps state next := by
  cases event with
  | advance context => exact advance_ok hs
  | call context call =>
      simp only [step] at hs
      split at hs
      next here =>
        cases hs
        exact .keeps (by rw [here]; rfl) trivial (by rw [here]; rfl)
      next => cases hs

/-- The FIFO holds what was accepted and not received yet, the contexts with the guard are
the owner of the mutex, a context that is about to move an item can do so, and calls return
what they may.
-/
structure Delivers (capacity : Nat) (state : Delivery κ T) : Prop where
  capacity : state.fifo.capacity = capacity
  holds : ∃ items, state.fifo.Holds items
    ∧ state.answered.filterMap ChannelAnswer.accepted
        = state.answered.filterMap ChannelAnswer.received ++ items
  owned : Monitor.Owned (fun context => (state.place context).inside) state.owner
  ready : ∀ context, (state.place context).Ready state.fifo
  fits : ∀ answer ∈ state.answered, answer.1.mayReturn answer.2

omit [DecidableEq κ] in
/-- Nothing was sent yet. -/
theorem delivers_start (capacity : Nat) : Delivers capacity (start capacity : Delivery κ T) where
  capacity := rfl
  holds := ⟨[], Fifo.holds_new capacity, rfl⟩
  owned := by simp [Monitor.Owned, start, DeliveryPlace.inside]
  ready _ := trivial
  fits := nofun

variable {capacity : Nat}

omit [DecidableEq κ] in
/-- A context with the guard is the one whose result is counted. -/
theorem Delivers.answered_eq (delivers : Delivers capacity state)
    (inside : (state.place context).inside = true)
    : state.answered = state.returned ++ (state.place context).answer.toList := by
  rw [answered, (delivers.owned context).mp inside]
  rfl

/-- A step inside a call decides nothing. Witness: a context that takes or gives back the mutex
is not about to return.
-/
theorem Delivers.answered_goes (delivers : Delivers capacity state) {owner : Option κ}
    (handover : Handover context (state.place context) place state.owner owner)
    (silent : place.answer = (state.place context).answer)
    : answered { state.goOn context place with owner } = state.answered := by
  rcases handover with ⟨rfl, -⟩ | ⟨free, rfl, -⟩ | ⟨was, rfl, outside⟩
  · cases owned : state.owner with
    | none => simp [answered, owned, goOn]
    | some holder =>
        by_cases he : holder = context <;> simp [answered, owned, goOn, he, silent]
  · have outside : (state.place context).inside = false := by
      simpa [free] using delivers.owned context
    simp [answered, free, goOn, silent, DeliveryPlace.answer_of_outside outside]
  · rw [delivers.answered_eq was, ← silent, DeliveryPlace.answer_of_outside outside]
    rfl

/-- A context with the guard decides what its call returns. Witness: no other one is about to
move an item.
-/
theorem Delivers.decides (delivers : Delivers capacity state) {fifo : Fifo T}
    (inside : (state.place context).inside = true) (undecided : (state.place context).answer = none)
    (decided : place.answer = some answer) (fits : answer.1.mayReturn answer.2)
    (size : fifo.capacity = capacity)
    (holds
      : ∃ items, fifo.Holds items
        ∧ (state.answered ++ [answer]).filterMap ChannelAnswer.accepted
            = (state.answered ++ [answer]).filterMap ChannelAnswer.received ++ items)
    : Delivers capacity { state.goOn context place with fifo } := by
  have still : place.inside = true ∧ place.Ready fifo := by
    cases place <;> first | exact ⟨rfl, trivial⟩ | cases decided
  have answers : answered { state.goOn context place with fifo } = state.answered ++ [answer] := by
    rw [delivers.answered_eq inside, undecided]
    simp [answered, goOn, (delivers.owned context).mp inside, decided]
  refine ⟨size, answers ▸ holds, ?_, fun other => ?_, ?_⟩
  · refine delivers.owned.move context (fun other hne => ?_) (.inl ⟨rfl, ?_⟩)
    · simp [goOn, hne]
    · simp [goOn, still.1, inside]
  · by_cases he : other = context
    case pos => simpa [goOn, he] using still.2
    case neg =>
        have ready := delivers.ready other
        simp only [goOn, Function.update_of_ne he]
        cases there : state.place other with
        | moving call =>
            exact absurd (delivers.owned.unique (by simp [there, DeliveryPlace.inside]) inside) he
        | trying call => rwa [there] at ready
        | _ => trivial
  · rw [answers]
    exact List.forall_mem_append.mpr ⟨delivers.fits, List.forall_mem_singleton.mpr fits⟩

/-- One step keeps all of it. Witness: an item is moved only by the owner of the mutex, and
its test, made since it last took the mutex, found the item or the room.
-/
theorem Delivers.step (delivers : Delivers capacity state) (hs : Steps state next)
    : Delivers capacity next := by
  obtain ⟨items, holds, accepted⟩ := delivers.holds
  cases hs with
  | @goes context place owner handover ready silent =>
      have answers := delivers.answered_goes handover silent
      refine ⟨delivers.capacity, answers ▸ delivers.holds, ?_, fun other => ?_,
        answers ▸ delivers.fits⟩
      · refine delivers.owned.move context (fun other hne => ?_) ?_
        · simp [goOn, hne]
        · simpa [goOn, Handover] using handover
      · by_cases he : other = context
        case pos => simpa [goOn, he] using ready
        case neg => simpa [goOn, he] using delivers.ready other
  | @refuses context call here =>
      have tries : call.waits = false := by
        simpa [here, DeliveryPlace.Ready] using delivers.ready context
      refine delivers.decides (by rw [here]; rfl) (by rw [here]; rfl) rfl ?_ delivers.capacity
        ⟨items, holds, ?_⟩
      · cases call <;> first | exact .inl rfl | cases tries
      · cases call <;> simpa [List.filterMap_cons, ChannelAnswer.accepted, ChannelAnswer.received,
          ChannelCall.refusal] using accepted
  | @pops context call item fifo here receives popped =>
      have passes : state.fifo.blocks call = false := by
        simpa [here, DeliveryPlace.Ready] using delivers.ready context
      cases items with
      | nil => exact absurd rfl ((holds.receivable receives).mp passes)
      | cons first rest =>
          obtain ⟨_, taken, size, left⟩ := holds.pop
          rw [popped] at taken
          cases taken
          refine delivers.decides (by rw [here]; rfl) (by rw [here]; rfl) rfl ?_
            (size.trans delivers.capacity) ⟨rest, left, ?_⟩
          · cases call <;> first | exact ⟨_, rfl⟩ | exact .inr ⟨_, rfl⟩ | cases receives
          · cases call <;>
              simp [List.filterMap_cons, ChannelAnswer.accepted, ChannelAnswer.received, accepted]
  | @pushes context call item here sends =>
      have passes : state.fifo.blocks call = false := by
        simpa [here, DeliveryPlace.Ready] using delivers.ready context
      have side : call.side = .senders := by cases call <;> first | rfl | cases sends
      have room := (holds.sendable side).mp passes
      obtain ⟨_, more⟩ := holds.push item room
      have size : (state.fifo.push item).2.capacity = state.fifo.capacity :=
        (Fifo.push_eq item (by simpa [Fifo.isFull, holds.used] using room.ne)).1
      refine delivers.decides (by rw [here]; rfl) (by rw [here]; rfl) rfl ?_
        (size.trans delivers.capacity) ⟨_, more, ?_⟩
      · cases call <;> first | exact rfl | exact .inr rfl | cases sends
      · simp [List.filterMap_cons, sends, ChannelAnswer.received, accepted]
  | @returns context call result here =>
      have answers : answered { state.goOn context .outside with
            owner := none, returned := state.returned ++ [(call, result)] } = state.answered := by
        have inside : (state.place context).inside = true := by rw [here]; rfl
        rw [delivers.answered_eq inside, here]
        simp [answered, DeliveryPlace.answer]
      refine ⟨delivers.capacity, answers ▸ delivers.holds, ?_, fun other => ?_,
        answers ▸ delivers.fits⟩
      · refine delivers.owned.move context (fun other hne => ?_) (.inr (.inr ⟨?_, rfl, ?_⟩))
        · simp [goOn, hne]
        · simp [here, DeliveryPlace.inside]
        · simp [goOn, DeliveryPlace.inside]
      · by_cases he : other = context
        case pos => simp [goOn, he, DeliveryPlace.Ready]
        case neg => simpa [goOn, he] using delivers.ready other

/-- Every reached state delivers, by induction on the run. -/
theorem Delivers.reached (reached : Reaches Delivery.step (fun _ _ => True) (start capacity) state)
    : Delivers capacity state :=
  reached.invariant (Delivers capacity) (delivers_start capacity)
    fun _ _ _ delivers _ hs => delivers.step (step_ok hs)

/-- `try_send` refuses its item exactly when the FIFO holds as many items as it can, and
touches nothing but its own place.
-/
theorem Delivers.advance_trySend (delivers : Delivers capacity state) {item : T}
    (here : state.place context = .trying (.trySend item))
    : state.advance context
        = .ok (state.goOn context
            (if state.fifo.contents.length = capacity then
              .unlocking (.trySend item) (.full item)
            else
              .moving (.trySend item))) := by
  obtain ⟨items, holds, _⟩ := delivers.holds
  have full : state.fifo.blocks (.trySend item) = decide (items.length = capacity) := by
    simp [Fifo.blocks, ChannelCall.side, Fifo.isFull, holds.used, delivers.capacity, BEq.beq]
  by_cases hq : items.length = capacity <;>
    simp [advance, here, full, holds.contents_eq, hq, ChannelCall.refusal] <;> rfl

/-- What calls to receive returned is a prefix of what calls to send accepted, both in the order
of their critical sections, and the FIFO holds the rest, never more than its capacity. An item
that is pushed finds room, a receiver that pops finds an item, calls that wait return no error,
and `try_send` returns its item exactly when the FIFO is full. Witness: the invariant of all
reached states.
-/
theorem channel_delivers (capacity : Nat) (state : Delivery κ T)
    (reached : Reaches step (fun _ _ => True) (start capacity) state)
    : state.returned.filterMap ChannelAnswer.received
        <+: state.answered.filterMap ChannelAnswer.accepted
      ∧ state.answered.filterMap ChannelAnswer.accepted
          = state.answered.filterMap ChannelAnswer.received ++ state.fifo.contents
      ∧ state.fifo.contents.length ≤ capacity
      ∧ (∀ answer ∈ state.answered, answer.1.mayReturn answer.2)
      ∧ (∀ context call item, state.place context = .moving call
          → call = .send item ∨ call = .trySend item
          → (state.fifo.push item).1 = true)
      ∧ (∀ context call, state.place context = .moving call
          → call = .recv ∨ call = .tryRecv
          → ∃ item fifo, state.fifo.pop = .ok (some item, fifo))
      ∧ ∀ context item, state.place context = .trying (.trySend item)
        → state.advance context
            = .ok (state.goOn context
                (if state.fifo.contents.length = capacity then
                  .unlocking (.trySend item) (.full item)
                else
                  .moving (.trySend item))) := by
  have delivers := Delivers.reached reached
  obtain ⟨items, holds, accepted⟩ := delivers.holds
  have contents := holds.contents_eq
  refine ⟨?_, by rw [contents, accepted], ?_, delivers.fits, ?_, ?_, ?_⟩
  · rw [accepted, answered, List.filterMap_append, List.append_assoc]
    exact List.prefix_append _ _
  · rw [contents, ← delivers.capacity]
    exact holds.room
  · intro context call item here sending
    have sends : call.side = .senders := by rcases sending with rfl | rfl <;> rfl
    have passes : state.fifo.blocks call = false := by
        simpa [here, DeliveryPlace.Ready] using delivers.ready context
    exact (holds.push item ((holds.sendable sends).mp passes)).1
  · intro context call here receiving
    have receives : call.side = .receivers := by rcases receiving with rfl | rfl <;> rfl
    have passes : state.fifo.blocks call = false := by
        simpa [here, DeliveryPlace.Ready] using delivers.ready context
    cases items with
    | nil => exact absurd rfl ((holds.receivable receives).mp passes)
    | cons first rest =>
        obtain ⟨fifo, popped, _⟩ := holds.pop
        exact ⟨first, fifo, popped⟩
  · exact fun context item here => delivers.advance_trySend here

/-- In a channel of one place, context 1 sends 7, context 3 receives it, context 1 sends 9, and
context 2 tries to send 8.
-/
def fullRun : List (DeliveryEvent Nat Nat) :=
  [.call 1 (.send 7), .advance 1, .advance 1, .advance 1, .advance 1, .advance 1,
    .call 3 .recv, .advance 3, .advance 3, .advance 3, .advance 3, .advance 3,
    .call 1 (.send 9), .advance 1, .advance 1, .advance 1, .advance 1, .advance 1,
    .call 2 (.trySend 8), .advance 2]

theorem channel_delivers_full
    : ∃ state : Delivery Nat Nat, run step (start 1) fullRun = .ok state
        ∧ state.returned = [(.send 7, .sent), (.recv, .received 7), (.send 9, .sent)]
        ∧ [7, 9] = [7] ++ state.fifo.contents
        ∧ state.advance 2 = .ok (state.goOn 2 (.unlocking (.trySend 8) (.full 8))) := by
  obtain ⟨state, ran⟩ : ∃ state : Delivery Nat Nat, run step (start 1) fullRun = .ok state :=
    ⟨_, rfl⟩
  have returned : state.returned = [(.send 7, .sent), (.recv, .received 7), (.send 9, .sent)] :=
    view_of_ok (fun state : Delivery Nat Nat => state.returned) ran rfl
  have answered : state.answered = state.returned :=
    (view_of_ok (fun state : Delivery Nat Nat => state.answered) ran rfl).trans returned.symm
  have here : state.place 2 = .trying (.trySend 8) :=
    view_of_ok (fun state : Delivery Nat Nat => state.place 2) ran rfl
  have reached : Reaches step (fun _ _ => True) (start 1) state :=
    Reaches.here.run (fun _ _ _ => trivial) ran
  obtain ⟨_, delivered, _, _, _, _, refuses⟩ := channel_delivers 1 state reached
  rw [answered, returned] at delivered
  have contents : [9] = state.fifo.contents := (List.cons.inj delivered).2
  refine ⟨state, ran, returned, delivered, ?_⟩
  rw [refuses 2 8 here, ← contents]
  rfl

end Delivery

end Scars
