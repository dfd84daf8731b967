import Scars.Preemption.ConsumedEvents

/-! Events are neither lost nor invented.
An account is kept for every thread of the events that were sent to it since a wait last returned
them. It is what the sent mask holds together with what the wait in progress has consumed.
-/

namespace Scars

open Memory Runs Function

/-- The events that a wait returned, with or without an error. -/
def WaitResult.received : WaitResult → Events
  | .events received => received
  | .timeout received => received
  | .wouldBlock => 0

/-- The machine, and the events that were sent to each thread since a wait of the thread last
returned them.
-/
structure Accounts extends Machine where
  owed : ThreadId → Events

namespace Accounts

def start (program : Program) : Accounts where
  toMachine := Machine.start program
  owed := fun _ => 0

/-- What is owed after a step: a sender adds its events, and a wait takes off what it returns. -/
def record (accounts : Accounts) (next : Machine) : Machine.Event → ThreadId → Events
  | .exec _ =>
      let current := accounts.raw.currentThread
      match accounts.running with
      | .access (.sendEvents thread events) :: _ =>
          update accounts.owed thread (accounts.owed thread ||| events.withoutFlag)
      | .access (.collectEvents _ _) :: _ =>
          let returned := (next.result current).elim 0 WaitResult.received
          update accounts.owed current (accounts.owed current &&& ~~~returned)
      | _ => accounts.owed
  | _ => accounts.owed

def step (fuel : Nat) (accounts : Accounts) (event : Machine.Event) : Except Fault Accounts :=
  (accounts.toMachine.step fuel event).map fun next =>
    { toMachine := next, owed := accounts.record next event }

end Accounts

variable {memory memory' : Memory} {fuel : Nat} {now : Instant} {more rest : List Instr}
  {context : ExecutionContext} {instr : Instr}

/-- The events that a thread was sent and has not been returned: those in the sent
mask and those that the wait in progress consumed.
-/
def Memory.outstanding (memory : Memory) (thread : ThreadId) : Events :=
  ((memory.raw.events thread).sentEventsMask ||| memory.received thread) &&& Events.sendable

/-- The events that `wait_events` returns. -/
def Memory.returned (events : Events) (timed : Bool) (memory : Memory) : Events :=
  let current := memory.raw.currentThread
  memory.received current
    ||| ((memory.raw.events current).sentEventsMask
      &&& if timed then events ||| Events.SCHEDULER_WAKEUP_EVENT else events)

/-- The outstanding events after an instruction: a sender adds its events, and a wait takes off
what it returns.
-/
def Memory.outstandingAfter (memory : Memory) (thread : ThreadId) : Instr → Events
  | .access (.sendEvents receiver events) =>
      if thread = receiver then
        memory.outstanding thread ||| (events.withoutFlag &&& Events.sendable)
      else
        memory.outstanding thread
  | .access (.collectEvents events timed) =>
      if thread = memory.raw.currentThread then
        memory.outstanding thread &&& ~~~memory.returned events timed
      else
        memory.outstanding thread
  | _ => memory.outstanding thread

theorem received_waitResult (timed : Bool) (received : Events)
    : (waitResult timed received).received = received := by
  unfold waitResult
  split <;> rfl

theorem collectEvents_result (events : Events) (timed : Bool) (memory : Memory)
    : ∃ result,
        (memory.collectEvents events timed).result memory.raw.currentThread = some result
        ∧ result.received = memory.returned events timed :=
  ⟨_, update_self _ _ _, received_waitResult _ _⟩

theorem outstanding_send (memory : Memory) (receiver thread : ThreadId) (events : Events)
    : Memory.outstanding
        { memory with
          raw := memory.raw.setEvents receiver
            ((memory.raw.events receiver).sendFetchOr events).2 }
        thread
      = if thread = receiver then
          memory.outstanding thread ||| (events.withoutFlag &&& Events.sendable)
        else
          memory.outstanding thread := by
  unfold Memory.outstanding Kernel.setEvents EventSet.sendFetchOr
  by_cases he : thread = receiver
  · subst he
    simp only [update_self, if_true]
    ext index bound
    simp only [BitVec.getElem_and, BitVec.getElem_or]
    grind
  · simp only [update_of_ne he, if_neg he]

theorem outstanding_consume (memory : Memory) (thread : ThreadId) (events : Events)
    (none : memory.received memory.raw.currentThread = 0)
    (raw : memory'.raw = (memory.raw.consumeEvents events).2)
    (received
      : memory'.received
        = update memory.received memory.raw.currentThread
          (memory.raw.consumeEvents events).1)
    : memory'.outstanding thread = memory.outstanding thread := by
  unfold Memory.outstanding
  rw [raw, received]
  unfold Kernel.consumeEvents Kernel.setEvents EventSet.readAndClearMatchingSentEvents
  by_cases he : thread = memory.raw.currentThread
  · subst he
    simp only [update_self, none]
    ext index bound
    simp only [BitVec.getElem_and, BitVec.getElem_or, BitVec.getElem_not]
    grind
  · simp only [update_of_ne he]

/-- A wait takes off what it returns, as what it consumed is a part of what it asked for. -/
theorem outstanding_collect (memory : Memory) (thread : ThreadId) (events : Events) (timed : Bool)
    (part
      : memory.received memory.raw.currentThread &&& events
        = memory.received memory.raw.currentThread)
    : (memory.collectEvents events timed).outstanding thread
      = if thread = memory.raw.currentThread then
          memory.outstanding thread &&& ~~~memory.returned events timed
        else
          memory.outstanding thread := by
  unfold Memory.outstanding Memory.collectEvents Memory.returned Kernel.setEvents
    EventSet.readAndClearMatchingSentEvents
  by_cases he : thread = memory.raw.currentThread
  · subst he
    rw [← part]
    simp only [update_self, if_true]
    ext index bound
    cases timed <;>
      simp only [BitVec.getElem_and, BitVec.getElem_or, BitVec.getElem_not, if_true,
        Bool.false_eq_true, if_false] <;>
      grind
  · simp only [update_of_ne he, if_neg he]

theorem outstanding_congr {thread : ThreadId}
    (sent
      : (memory'.raw.events thread).sentEventsMask &&& Events.sendable
        = (memory.raw.events thread).sentEventsMask &&& Events.sendable)
    (received : memory'.received = memory.received)
    : memory'.outstanding thread = memory.outstanding thread := by
  unfold Memory.outstanding
  rw [received, BitVec.and_or_distrib_right, sent, ← BitVec.and_or_distrib_right]

/-- Whatever is no send and no return of a wait leaves the outstanding events alone. -/
theorem outstanding_perform (notSend : ∀ thread events, instr ≠ .access (.sendEvents thread events))
    (notReturn : ∀ events timed, instr ≠ .access (.collectEvents events timed))
    (unconsumed
      : ∀ events,
          instr = .locked (.consumeEvents events)
          → memory.received memory.raw.currentThread = 0)
    (hp : instr.perform fuel now context memory = .ok (memory', more)) (thread : ThreadId)
    : memory'.outstanding thread = memory.outstanding thread := by
  by_cases inside : ∃ op, instr = .locked op
  · obtain ⟨op, rfl⟩ := inside
    cases op.perform_effect hp with
    | wakes wakes received => exact outstanding_congr (wakes.sent thread) received
    | blocks wakes blocks _ received =>
        refine outstanding_congr ?_ received
        rw [blocks.events]
        exact wakes.sent thread
    | waits hi received =>
        obtain ⟨_, _, he, -⟩ := Kernel.insertToWaitQueue_waits hi
        exact outstanding_congr (by rw [he]) received
    | asks raw received =>
        refine outstanding_congr ?_ received
        rw [raw]
        unfold Kernel.setWaitedEvents Kernel.setEvents
        by_cases he : thread = memory.raw.currentThread
        · subst he
          simp [EventSet.setWaitedEvents]
        · simp [he]
    | @consumes events raw received =>
        exact outstanding_consume memory thread events (unconsumed events rfl) raw received
  · cases Instr.perform_waits hp (not_exists.mp inside) with
    | same waits received => exact outstanding_congr (by rw [waits.events]) received
    | sent _ _ => exact absurd rfl (notSend _ _)
    | @popped queue all after _ =>
        refine outstanding_congr ?_ (by rw [after])
        rw [after]
        unfold Kernel.popWaiter
        dsimp only
        split <;> rfl
    | cleared after =>
        refine outstanding_congr ?_ (by rw [after])
        rw [after]
        unfold Kernel.setEvents
        by_cases he : thread = memory.raw.currentThread
        · subst he
          simp [EventSet.clearWaitedEvents]
        · simp [he]
    | collected _ => exact absurd rfl (notReturn _ _)

theorem getLsbD_sendable : ∀ bit < 29, Events.sendable.getLsbD bit = true := by decide

theorem getLsbD_wakeup : ∀ bit < 29, Events.SCHEDULER_WAKEUP_EVENT.getLsbD bit = false := by
  decide

theorem getLsbD_flag : ∀ bit < 29, Events.REQUIRE_ALL_EVENTS.getLsbD bit = false := by decide

theorem getLsbD_withoutFlag (events : Events) {bit : Nat} (sendable : bit < 29)
    : events.withoutFlag.getLsbD bit = events.getLsbD bit := by
  unfold Events.withoutFlag
  rw [BitVec.getLsbD_and, BitVec.getLsbD_not, getLsbD_flag bit sendable]
  simp [show bit < 32 by omega]

theorem getLsbD_outstanding {memory : Memory} {thread : ThreadId} {bit : Nat} (sendable : bit < 29)
    : (memory.outstanding thread).getLsbD bit
      = ((memory.raw.events thread).sentEventsMask.getLsbD bit
        || (memory.received thread).getLsbD bit) := by
  unfold Memory.outstanding
  rw [BitVec.getLsbD_and, BitVec.getLsbD_or, getLsbD_sendable bit sendable, Bool.and_true]

theorem getLsbD_or_sent (owed events : Events) {bit : Nat} (sendable : bit < 29)
    : (owed ||| (events.withoutFlag &&& Events.sendable)).getLsbD bit
      = (owed.getLsbD bit || events.getLsbD bit) := by
  rw [BitVec.getLsbD_or, BitVec.getLsbD_and, getLsbD_sendable bit sendable, Bool.and_true,
    getLsbD_withoutFlag events sendable]

theorem getLsbD_returned {memory : Memory} {events : Events} (timed : Bool) {bit : Nat}
    (sendable : bit < 29)
    : (memory.returned events timed).getLsbD bit
      = ((memory.received memory.raw.currentThread).getLsbD bit
        || ((memory.raw.events memory.raw.currentThread).sentEventsMask.getLsbD bit
          && events.getLsbD bit)) := by
  unfold Memory.returned
  cases timed <;> simp [getLsbD_wakeup bit sendable]

namespace Machine

variable {machine machine' : Machine} {thread : ThreadId} {events : Events}

section

variable (consuming : machine.Consuming)
include consuming

theorem Consuming.part {timed : Bool}
    (hrun : machine.running = .access (.collectEvents events timed) :: rest)
    : machine.received machine.raw.currentThread &&& events
      = machine.received machine.raw.currentThread := by
  have idle := consuming.idle_of_endsWait hrun rfl
  rw [running_of_thread idle] at hrun
  rcases consuming.received machine.raw.currentThread with
    none | ⟨asked, ⟨timed, left, inside | inside⟩, part⟩
  · simp [none]
  · rw [hrun] at inside
    cases inside
  · rw [hrun] at inside
    cases inside
    exact part

theorem Consuming.unconsumed_current (serving : machine.Serving)
    (hrun : machine.running = .locked (.consumeEvents events) :: rest)
    : machine.received machine.raw.currentThread = 0 := by
  cases frames : machine.frames with
  | nil =>
      rw [running_of_thread frames] at hrun
      have none := serving.threads machine.raw.currentThread (.locked (.consumeEvents events))
        (by simp [hrun])
      cases none.1
  | cons top below =>
      rw [running_of_frame frames] at hrun
      exact consuming.unconsumed top (by simp [frames]) (.locked (.consumeEvents events))
        (by simp [hrun]) rfl

theorem outstanding_exec (serving : machine.Serving) (hrun : machine.running = instr :: rest)
    (hp : instr.perform fuel now machine.context machine.toMemory = .ok (memory, more))
    (thread : ThreadId)
    : memory.outstanding thread = machine.outstandingAfter thread instr := by
  unfold Memory.outstandingAfter
  split
  next receiver events =>
    obtain ⟨rfl, -⟩ := setRaw_ok hp
    exact outstanding_send machine.toMemory receiver thread events
  next events timed =>
    cases hp
    exact outstanding_collect _ thread events timed (consuming.part hrun)
  next notSend notReturn =>
    refine outstanding_perform notSend notReturn (fun events consumes => ?_) hp thread
    subst consumes
    exact consuming.unconsumed_current serving hrun

/-- Whether an event is outstanding changes when it is sent, and when a wait of the thread
collects it.
-/
theorem outstanding_step (serving : machine.Serving) {event : Event}
    (hs : machine.step fuel event = .ok machine') (thread : ThreadId) {bit : Nat}
    (sendable : bit < 29)
    : (machine'.outstanding thread).getLsbD bit = (machine.outstanding thread).getLsbD bit
      ∨ (∃ now events rest,
          event = .exec now
          ∧ machine.running = .access (.sendEvents thread events) :: rest
          ∧ events.getLsbD bit = true)
      ∨ ∃ now events timed rest,
          event = .exec now
          ∧ thread = machine.raw.currentThread
          ∧ machine.running = .access (.collectEvents events timed) :: rest
          ∧ events.getLsbD bit = true
          ∧ (machine'.outstanding thread).getLsbD bit = false := by
  rcases memory_step hs with he | ⟨now, instr, rest, more, rfl, hrun, hp⟩
  · exact Or.inl (by rw [he])
  · rw [outstanding_exec consuming serving hrun hp]
    unfold Memory.outstandingAfter
    split
    next receiver events =>
      split
      next isReceiver =>
        subst isReceiver
        rw [getLsbD_or_sent _ _ sendable]
        cases sent : events.getLsbD bit with
        | false => exact Or.inl (Bool.or_false _)
        | true => exact Or.inr (Or.inl ⟨now, events, rest, rfl, hrun, sent⟩)
      · exact Or.inl rfl
    next events timed =>
      split
      next isCurrent =>
        subst isCurrent
        have part := congrArg (BitVec.getLsbD · bit) (consuming.part hrun)
        simp only [BitVec.getLsbD_and] at part
        have before := @getLsbD_outstanding machine.toMemory machine.raw.currentThread bit sendable
        rw [BitVec.getLsbD_and, BitVec.getLsbD_not, getLsbD_returned timed sendable]
        cases collected : events.getLsbD bit with
        | false => exact Or.inl (by grind)
        | true =>
            exact Or.inr (Or.inr
              ⟨now, events, timed, rest, rfl, rfl, hrun, collected, by grind⟩)
      · exact Or.inl rfl
    · exact Or.inl rfl

end

theorem outstanding_sent (hrun : machine.running = .access (.sendEvents thread events) :: rest)
    (consuming : machine.Consuming) (serving : machine.Serving)
    (hs : machine.step fuel (.exec now) = .ok machine') {bit : Nat} (sendable : bit < 29)
    (sent : events.getLsbD bit = true)
    : (machine'.outstanding thread).getLsbD bit = true := by
  cases step_ok hs with
  | instr head hp =>
      cases hrun.symm.trans head
      rw [toMemory_goOn, outstanding_exec consuming serving hrun hp]
      simp only [Memory.outstandingAfter, if_true]
      rw [getLsbD_or_sent _ _ sendable, sent, Bool.or_true]
  | restore active ended =>
      rw [running_of_frame active, ended] at hrun
      cases hrun

end Machine

namespace Accounts

variable {accounts accounts' : Accounts} {program : Program}

/-- What is owed is what is outstanding. -/
structure Correct (accounts : Accounts) : Prop where
  exclusive : accounts.toMachine.Exclusive
  serving : accounts.toMachine.Serving
  consuming : accounts.toMachine.Consuming
  balance : ∀ thread, accounts.owed thread &&& Events.sendable = accounts.outstanding thread

theorem start_correct (program : Program) : (Accounts.start program).Correct where
  exclusive := Machine.start_exclusive program
  serving := Machine.start_serving program
  consuming := Machine.start_consuming program
  balance _ := by
    simp [Memory.outstanding, Accounts.start, Machine.start, Memory.start, Kernel.start]

theorem record_other {next : Machine} (hrun : accounts.running = instr :: rest)
    (notSend : ∀ thread events, instr ≠ .access (.sendEvents thread events))
    (notReturn : ∀ events timed, instr ≠ .access (.collectEvents events timed))
    (event : Machine.Event)
    : accounts.record next event = accounts.owed := by
  unfold record
  split
  · dsimp only
    rw [hrun]
    split
    next thread events _ he => cases he; exact absurd rfl (notSend thread events)
    next events timed _ he => cases he; exact absurd rfl (notReturn events timed)
    · rfl
  · rfl

section

variable (correct : accounts.Correct)
include correct

theorem Correct.balance_perform {next : Machine} {memory : Memory}
    (hrun : accounts.running = instr :: rest)
    (hp : instr.perform fuel now accounts.context accounts.toMemory = .ok (memory, more))
    (he : next.toMemory = memory) (thread : ThreadId)
    : accounts.record next (.exec now) thread &&& Events.sendable = memory.outstanding thread := by
  have before := correct.balance
  rw [Machine.outstanding_exec correct.consuming correct.serving hrun hp]
  unfold Memory.outstandingAfter
  split
  next receiver events =>
    simp only [record, hrun]
    split
    next isReceiver =>
      subst isReceiver
      rw [update_self, BitVec.and_or_distrib_right, before]
    next other => rw [update_of_ne other, before]
  next events timed =>
    obtain ⟨result, returned, bits⟩ := collectEvents_result events timed accounts.toMemory
    cases hp
    simp only [record, hrun, he]
    split
    next isCurrent =>
      subst isCurrent
      rw [update_self, returned, Option.elim_some, bits, ← before]
      ext index bound
      simp only [BitVec.getElem_and, BitVec.getElem_not]
      grind
    next other => rw [update_of_ne other, before]
  next notSend notReturn => rw [record_other hrun notSend notReturn, before]

theorem Correct.step {event : Machine.Event} (hs : accounts.step fuel event = .ok accounts')
    : accounts'.Correct := by
  obtain ⟨next, ran, rfl⟩ := map_ok.mp hs
  refine ⟨correct.exclusive.step ran, correct.serving.step correct.exclusive ran,
    correct.consuming.step correct.serving correct.exclusive ran, fun thread => ?_⟩
  cases Machine.step_ok ran with
  | @instr now instr rest more memory hrun hp =>
      rw [correct.balance_perform hrun hp (Machine.toMemory_goOn _ _ _ _),
        Machine.toMemory_goOn]
  | restore active ended =>
      have none : accounts.running = [] := by rw [Machine.running_of_frame active, ended]
      have kept (next : Machine) (now : Instant)
          : accounts.record next (.exec now) = accounts.owed := by
        simp only [record, none]
      rw [kept]
      exact correct.balance thread
  | call => rw [Machine.toMemory_setRunning]; exact correct.balance thread
  | finish => rw [Machine.toMemory_setRunning]; exact correct.balance thread
  | fire => exact correct.balance thread

theorem Correct.getLsbD_owed (thread : ThreadId) {bit : Nat} (user : bit < 28)
    : (accounts.owed thread).getLsbD bit
      = ((accounts.raw.events thread).sentEventsMask.getLsbD bit
        || (accounts.received thread).getLsbD bit) := by
  have he := congrArg (fun events => BitVec.getLsbD events bit) (correct.balance thread)
  rw [BitVec.getLsbD_and, getLsbD_sendable bit (by omega), Bool.and_true,
    getLsbD_outstanding (by omega)] at he
  exact he

theorem Correct.returned {events : Events} {timed : Bool}
    (hrun : accounts.running = .access (.collectEvents events timed) :: rest) {bit : Nat}
    (user : bit < 28) (received : (accounts.toMemory.returned events timed).getLsbD bit = true)
    : events.getLsbD bit = true
      ∧ (accounts.owed accounts.raw.currentThread).getLsbD bit = true := by
  have part := congrArg (fun events => BitVec.getLsbD events bit) (correct.consuming.part hrun)
  rw [BitVec.getLsbD_and] at part
  rw [correct.getLsbD_owed _ user]
  rw [getLsbD_returned timed (by omega)] at received
  grind

end

/-- In every run, for every thread and every event of the user: the event has been sent since a
wait last returned it iff it is in the sent mask or among the events that the wait in progress
consumed, and a wait returns only events that were requested and have been sent since a wait last
returned them. Witness: each access moves events between the mask, what was consumed and what was
returned.
-/
theorem events_accounted
    (reached
      : Reaches (Accounts.step fuel) (fun _ _ => True) (Accounts.start program) accounts)
    : (∀ thread,
        ∀ bit < 28,
          (accounts.owed thread).getLsbD bit = true
          ↔ (accounts.raw.events thread).sentEventsMask.getLsbD bit = true
            ∨ (accounts.received thread).getLsbD bit = true)
      ∧ (∀ thread,
          accounts.received thread ≠ 0 → ∃ events, Collects events (accounts.code thread))
      ∧ ∀ now events timed rest accounts',
          accounts.running = .access (.collectEvents events timed) :: rest
          → accounts.step fuel (.exec now) = .ok accounts'
          → ∃ result,
              accounts'.result accounts.raw.currentThread = some result
              ∧ ∀ bit < 28,
                  result.received.getLsbD bit = true
                  → events.getLsbD bit = true
                    ∧ (accounts.owed accounts.raw.currentThread).getLsbD bit = true := by
  have correct : accounts.Correct :=
    reached.invariant Correct (start_correct program) fun _ _ _ correct _ ran => correct.step ran
  refine ⟨fun thread bit user => ?_, fun thread some => ?_,
    fun now events timed rest accounts' hrun hs => ?_⟩
  · rw [correct.getLsbD_owed thread user, Bool.or_eq_true]
  · obtain ⟨events, collects, -⟩ := (correct.consuming.received thread).resolve_left some
    exact ⟨events, collects⟩
  · obtain ⟨next, ran, rfl⟩ := map_ok.mp hs
    obtain ⟨result, returned, bits⟩ := collectEvents_result events timed accounts.toMemory
    have memory : next.toMemory = accounts.toMemory.collectEvents events timed := by
      cases Machine.step_ok ran with
      | instr he hp =>
          rw [hrun] at he
          cases he
          cases hp
          exact Machine.toMemory_goOn _ _ _ _
      | restore active ended =>
          rw [Machine.running_of_frame active, ended] at hrun
          cases hrun
    refine ⟨result, ?_, fun bit user received => ?_⟩
    · rw [← returned, ← memory]
    · rw [bits] at received
      exact correct.returned hrun user received

set_option maxRecDepth 4000 in
/-- Thread 2 waits for events 0 and 1, and is sent events 0 and 2: the wait returns event 0, and
event 2 is still owed.
-/
theorem events_accounted_sent
    : let program : Program :=
        ⟨fun thread => .thread thread.toUInt8, fun _ => .interrupt 4, fun _ => .interrupt 3⟩
      let events : List Machine.Event :=
        .call (.start 2) :: List.replicate 26 (.exec 0)
          ++ .call (.waitEvents 3) :: List.replicate 17 (.exec 0)
          ++ .fire 5 :: .call (.sendEvents 2 5) :: List.replicate 12 (.exec 0)
          ++ .finish :: List.replicate 15 (.exec 0)
      ∃ accounts accounts' : Accounts,
        run (Accounts.step 2) (Accounts.start program) events = .ok accounts
        ∧ accounts.step 2 (.exec 0) = .ok accounts'
        ∧ accounts.owed 2 = 5
        ∧ accounts'.owed 2 = 4
        ∧ ((accounts.raw.events 2).sentEventsMask.getLsbD 2 = true
          ∨ (accounts.received 2).getLsbD 2 = true)
        ∧ ∃ result,
            accounts'.result 2 = some result
            ∧ ∀ bit < 28,
                result.received.getLsbD bit = true
                → (3 : Events).getLsbD bit = true ∧ (5 : Events).getLsbD bit = true := by
  intro program events
  obtain ⟨accounts, ran⟩
      : ∃ accounts, run (Accounts.step 2) (Accounts.start program) events = .ok accounts := by
    unfold program events
    exact ⟨_, rfl⟩
  have owed : accounts.owed 2 = 5 :=
    view_of_ok (fun accounts : Accounts => accounts.owed 2) ran (by unfold program events; rfl)
  have current : accounts.raw.currentThread = 2 :=
    view_of_ok (fun accounts : Accounts => accounts.raw.currentThread) ran
      (by unfold program events; rfl)
  have hrun : accounts.running = [.access (.collectEvents 3 false), .user] :=
    view_of_ok (fun accounts : Accounts => accounts.running) ran (by unfold program events; rfl)
  have left : (accounts.step 2 (.exec 0)).map (fun accounts => accounts.owed 2) = .ok 4 :=
    view_of_ok
      (fun accounts : Accounts =>
        (accounts.step 2 (.exec 0)).map fun accounts => accounts.owed 2)
      ran (by unfold program events; rfl)
  obtain ⟨accounts', hs, owed'⟩ := map_ok.mp left
  obtain ⟨balance, -, returns⟩ :=
    events_accounted (Reaches.run .here (fun _ _ _ => trivial) ran)
  refine ⟨accounts, accounts', ran, hs, owed, owed',
    (balance 2 2 (by decide)).mp (by rw [owed]; decide), ?_⟩
  have returned := returns 0 3 false _ accounts' hrun hs
  rwa [current, owed] at returned

end Accounts

end Scars
