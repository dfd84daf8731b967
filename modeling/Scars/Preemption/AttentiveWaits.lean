import Scars.Preemption.EventWakeups
import Scars.Kernel.Signals

/-! Threads that wait for events are answered.
The invariant follows one wait from the store of its request to the block. It is kept for the
waits that consume nothing, or all that they ask for.
-/

namespace Scars

open Memory Runs Function Kernel

variable {memory memory' : Memory} {fuel : Nat} {now : Instant} {more rest left : List Instr}
  {instr : Instr} {thread : ThreadId} {events : Events}

/-- A thread that must block although it consumed nothing or all that it asked for has consumed
nothing.
-/
theorem received_of_mustBlock {received : Events} (must : mustBlock events received = true)
    (whole : received = 0 ∨ received &&& events.withoutFlag = events.withoutFlag)
    : received = 0 ∧ (events.requireAll = true → events.withoutFlag ≠ 0) := by
  unfold mustBlock at must
  rcases whole with none | all
  · refine ⟨none, fun requireAll empty => ?_⟩
    simp [requireAll, empty] at must
  · simp only [all, bne_self_eq_false, Bool.or_false, Bool.and_eq_true, Bool.not_eq_true',
      beq_iff_eq] at must
    refine ⟨must.2, fun requireAll => ?_⟩
    rw [must.1] at requireAll
    cases requireAll

theorem sendCheck_of_disjoint {set : EventSet}
    (disjoint : set.waitedEventsMask.withoutFlag &&& set.sentEventsMask = 0)
    : set.sendCheck set.sentEventsMask = false := by
  unfold EventSet.sendCheck
  dsimp only
  rw [disjoint]
  simp [EventSet.shouldNotify]

theorem consumeEvents_ok {context : ExecutionContext}
    (hp
      : (Instr.locked (.consumeEvents events)).perform fuel now context memory
        = .ok (memory', more))
    : memory'.raw.currentThread = memory.raw.currentThread
      ∧ memory'.received memory.raw.currentThread
        = (memory.raw.events memory.raw.currentThread).sentEventsMask &&& events.withoutFlag
      ∧ memory'.raw.events memory.raw.currentThread
        = { memory.raw.events memory.raw.currentThread with
            sentEventsMask :=
              (memory.raw.events memory.raw.currentThread).sentEventsMask
                &&& ~~~events.withoutFlag } := by
  cases hp
  exact ⟨rfl, update_self _ _ _, update_self _ _ _⟩

namespace Machine

variable {machine machine' : Machine} {program : Program} {code : List Instr} {timed : Bool}

theorem received_of_notCurrent {event : Event} (hs : machine.step fuel event = .ok machine')
    (notCurrent : thread ≠ machine.raw.currentThread)
    : machine'.received thread = machine.received thread := by
  rcases memory_step hs with he | ⟨now, instr, rest, more, -, -, hp⟩
  · rw [he]
  · rcases Instr.perform_received hp with he | ⟨_, -, received⟩ | ⟨_, _, -, received⟩
    · rw [he]
    · rw [received, update_of_ne notCurrent]
    · rw [received, update_of_ne notCurrent]

theorem blocks_of_waits (serving : machine.Serving) (enqueued : machine.Enqueued)
    (waits
      : machine.code thread
        = .access .clearWaitedEvents :: .access (.collectEvents events timed) :: rest)
    {op : Locked} (hrun : machine.running = .locked op :: left)
    (blocking : op.blocks machine.raw.currentThread = some thread)
    : thread = machine.raw.currentThread
      ∧ ∃ deadline, op = .blockUnlessReceived events deadline := by
  unfold Locked.blocks at blocking
  split at blocking
  · cases blocking
    obtain ⟨_, inside⟩ := serving.current hrun rfl
    rw [waits] at inside
    cases inside
  · cases blocking
    obtain ⟨_, _, inside⟩ := enqueued _ thread (Or.inl hrun.symm) rfl
    rw [waits] at inside
    cases inside
  · cases blocking
    obtain ⟨_, _, inside⟩ := serving.current hrun rfl
    rw [waits] at inside
    cases inside
    exact ⟨rfl, _, rfl⟩
  · cases blocking

/-- The masks of a thread that is blocked in a wait are left to senders. -/
theorem masksStay_of_blocked (hx : machine.Exclusive) (serving : machine.Serving)
    (enqueued : machine.Enqueued)
    (waits
      : machine.code thread
        = .access .clearWaitedEvents :: .access (.collectEvents events timed) :: rest)
    (notCurrent : thread ≠ machine.raw.currentThread) {event : Event}
    (hs : machine.step fuel event = .ok machine') (blocked : machine'.raw.state thread = .blocked)
    : machine.MasksStay machine' thread := by
  cases step_ok hs with
  | @instr now instr rest more memory hrun hp =>
      rw [toMemory_goOn] at blocked
      refine masksStay_goOn hx hrun hp ?_
      refine Instr.perform_masks_of_blocked hp notCurrent ?_ blocked
      rintro op rfl blocking
      exact notCurrent (blocks_of_waits serving enqueued waits hrun blocking).1
  | restore => exact Or.inl rfl
  | call => exact Or.inl (by rw [toMemory_setRunning])
  | finish => exact Or.inl (by rw [toMemory_setRunning])
  | fire => exact Or.inl rfl

/-- The waits that `cares` selects are answered: once the request is stored senders see it, when
the thread is about to be blocked it consumed everything or what was sent since is answered, and
a blocked thread consumed nothing and is answered.
-/
structure Attentive (cares : ThreadId → Events → Prop) (machine : Machine) : Prop where
  asked
    : ∀ events left,
        machine.HasCode (.locked (.consumeEvents events) :: left)
        → (machine.raw.events machine.raw.currentThread).waitedEventsMask = events
  decided
    : ∀ events deadline left,
        machine.HasCode (.locked (.blockUnlessReceived events deadline) :: left)
        → cares machine.raw.currentThread events
        → (machine.raw.events machine.raw.currentThread).waitedEventsMask = events
          ∧ machine.Heeded machine.raw.currentThread
          ∧ (machine.received machine.raw.currentThread = 0
            ∨ machine.received machine.raw.currentThread &&& events.withoutFlag
              = events.withoutFlag)
  blocked
    : ∀ thread events timed rest,
        cares thread events
        → machine.raw.state thread = .blocked
        → machine.code thread
          = .access .clearWaitedEvents :: .access (.collectEvents events timed) :: rest
        → (machine.raw.events thread).waitedEventsMask = events
          ∧ machine.Heeded thread
          ∧ machine.received thread = 0
          ∧ (events.requireAll = true → events.withoutFlag ≠ 0)

/-- What holds of the machine in all runs of the condition. -/
structure Receiving (cares : ThreadId → Events → Prop) (machine : Machine) : Prop where
  exclusive : machine.Exclusive
  settled : machine.Settled
  serving : machine.Serving
  consuming : machine.Consuming
  intact : machine.Intact
  prepared : ∀ code, machine.HasCode code → Prepared code
  enqueued : machine.Enqueued
  attentive : machine.Attentive cares

variable {cares : ThreadId → Events → Prop}

theorem start_receiving (program : Program) : (Machine.start program).Receiving cares where
  exclusive := start_exclusive program
  settled := start_settled program
  serving := start_serving program
  consuming := start_consuming program
  intact := ⟨.empty, represents_new⟩
  prepared code hasCode := by
    rw [start_hasCode program hasCode]
    exact .singleton _
  enqueued := start_enqueued program
  attentive := by
    refine ⟨fun events left hasCode => ?_, fun events deadline left hasCode => ?_,
      fun thread events timed rest _ _ waits => ?_⟩
    · cases start_hasCode program hasCode
    · cases start_hasCode program hasCode
    · cases waits

/-- A wait that is selected consumes nothing or all that it asks for, in this step. -/
def ConsumesWhole (cares : ThreadId → Events → Prop) (machine : Machine) (event : Event)
    : Prop :=
  ∀ now events rest,
    event = .exec now
    → machine.running = .locked (.consumeEvents events) :: rest
    → cares machine.raw.currentThread events
    → (machine.raw.events machine.raw.currentThread).sentEventsMask &&& events.withoutFlag = 0
      ∨ (machine.raw.events machine.raw.currentThread).sentEventsMask &&& events.withoutFlag
        = events.withoutFlag

section

variable {event : Event} (receiving : machine.Receiving cares)
  (hs : machine.step fuel event = .ok machine')

include receiving hs

theorem Receiving.asked_step (hasCode : machine'.HasCode (.locked (.consumeEvents events) :: left))
    : (machine'.raw.events machine'.raw.currentThread).waitedEventsMask = events := by
  rcases prepared_step receiving.prepared receiving.serving receiving.consuming
      receiving.exclusive hs hasCode rfl with
    ⟨now, instr, rfl, hrun, precedes, hp⟩ | ⟨before, undisturbed⟩
  · have stores := precedes.1 events rfl
    subst stores
    have stored : (Locked.setWaitedEvents events).perform fuel now machine.toMemory
        = .ok (machine'.toMemory, []) := hp
    unfold Locked.perform at stored
    dsimp only at stored
    split at stored
    · cases stored
    · rw [(setRaw_ok stored).1]
      simp [setWaitedEvents, setEvents, EventSet.setWaitedEvents]
  · rw [undisturbed.current, undisturbed.masks.waited]
    exact receiving.attentive.asked events left before

section

variable (fifo : machine.PushesFifo fuel event)
include fifo

theorem Receiving.decided_step (whole : machine.ConsumesWhole cares event)
    {deadline : Option Instant}
    (hasCode : machine'.HasCode (.locked (.blockUnlessReceived events deadline) :: left))
    (selected : cares machine'.raw.currentThread events)
    : (machine'.raw.events machine'.raw.currentThread).waitedEventsMask = events
      ∧ machine'.Heeded machine'.raw.currentThread
      ∧ (machine'.received machine'.raw.currentThread = 0
        ∨ machine'.received machine'.raw.currentThread &&& events.withoutFlag
          = events.withoutFlag) := by
  rcases prepared_step receiving.prepared receiving.serving receiving.consuming
      receiving.exclusive hs hasCode rfl with
    ⟨now, instr, rfl, hrun, precedes, hp⟩ | ⟨before, undisturbed⟩
  · have consumes := precedes.2 events deadline rfl
    subst consumes
    have waited := receiving.attentive.asked events _ (Or.inl hrun.symm)
    obtain ⟨current, received, masks⟩ := consumeEvents_ok hp
    rw [current] at selected ⊢
    refine ⟨by rw [masks]; exact waited, fun enough => ?_, ?_⟩
    · have disjoint
          : (machine'.raw.events machine.raw.currentThread).waitedEventsMask.withoutFlag
              &&& (machine'.raw.events machine.raw.currentThread).sentEventsMask
            = 0 := by
        rw [masks]
        dsimp only
        rw [waited]
        ext index bound
        simp only [BitVec.getElem_and, BitVec.getElem_not, BitVec.ofNat_eq_ofNat,
          BitVec.getElem_zero]
        grind
      rw [sendCheck_of_disjoint disjoint] at enough
      cases enough
    · rw [received, BitVec.and_assoc, BitVec.and_self]
      exact whole now events _ rfl hrun selected
  · rw [undisturbed.current] at selected ⊢
    obtain ⟨waited, heeded, received⟩ :=
      receiving.attentive.decided events deadline left before selected
    refine ⟨undisturbed.masks.waited.trans waited, ?_, by rwa [undisturbed.received]⟩
    exact heeded.step receiving.exclusive receiving.intact fifo hs undisturbed.masks
      fun resumed => absurd resumed (undisturbed.notResumed _)

theorem Receiving.blocked_step (selected : cares thread events)
    (blocked : machine'.raw.state thread = .blocked)
    (waits
      : machine'.code thread
        = .access .clearWaitedEvents :: .access (.collectEvents events timed) :: rest)
    : (machine'.raw.events thread).waitedEventsMask = events
      ∧ machine'.Heeded thread
      ∧ machine'.received thread = 0
      ∧ (events.requireAll = true → events.withoutFlag ≠ 0) := by
  have settled' := receiving.settled.step receiving.exclusive hs
  have notCurrent' : thread ≠ machine'.raw.currentThread := by
    rintro rfl
    simp [settled'.current_running] at blocked
  rw [code_step receiving.exclusive hs notCurrent'] at waits
  have heeds (heeded : machine.Heeded thread) (stay : machine.MasksStay machine' thread)
      : machine'.Heeded thread :=
    heeded.step receiving.exclusive receiving.intact fifo hs stay fun _ => blocked
  rcases Machine.blocked_step hs blocked with before | ⟨op, left, hrun, blocking⟩
  · have notCurrent : thread ≠ machine.raw.currentThread := by
      rintro rfl
      simp [receiving.settled.current_running] at before
    obtain ⟨waited, heeded, none, some⟩ :=
      receiving.attentive.blocked thread events timed rest selected before waits
    have stay := masksStay_of_blocked receiving.exclusive receiving.serving receiving.enqueued
      waits notCurrent hs blocked
    refine ⟨stay.waited.trans waited, heeds heeded stay, ?_, some⟩
    rw [received_of_notCurrent hs notCurrent]
    exact none
  · -- the thread is blocked in this step, by its wait
    obtain ⟨rfl, deadline, rfl⟩ :=
      blocks_of_waits receiving.serving receiving.enqueued waits hrun blocking
    obtain ⟨waited, heeded, whole⟩ :=
      receiving.attentive.decided events deadline left (Or.inl hrun.symm) selected
    cases step_ok hs with
    | @instr now instr rest more memory he hp =>
        rw [hrun] at he
        cases he
        obtain ⟨raw, blocks, rfl, -⟩ := withRaw_ok hp
        rw [toMemory_goOn] at blocked ⊢
        rcases blockUnlessReceived_ok blocks with ⟨must, blocks⟩ | ⟨-, rfl⟩
        · obtain ⟨none, some⟩ := received_of_mustBlock must whole
          have events_eq : raw.events = machine.raw.events :=
            (blockThread_blocks blocks).events.trans events_handOver
          refine ⟨by rw [← waited, events_eq], heeds heeded (Or.inl ?_), none, some⟩
          rw [toMemory_goOn]
          exact congrFun events_eq _
        · rw [receiving.settled.current_running] at blocked
          cases blocked
    | restore active ended =>
        rw [running_of_frame active, ended] at hrun
        cases hrun
    | call he =>
        rw [hrun] at he
        cases he
    | finish he =>
        rw [hrun] at he
        cases he
    | fire => exact absurd rfl notCurrent'

theorem Receiving.step (whole : machine.ConsumesWhole cares event)
    : machine'.Receiving cares where
  exclusive := receiving.exclusive.step hs
  settled := receiving.settled.step receiving.exclusive hs
  serving := receiving.serving.step receiving.exclusive hs
  consuming := receiving.consuming.step receiving.serving receiving.exclusive hs
  intact := intact_step receiving.intact fifo hs
  prepared := keptByCode_prepared.step receiving.exclusive receiving.prepared hs
  enqueued :=
    receiving.enqueued.step receiving.settled receiving.serving receiving.exclusive hs
  attentive := {
    asked _ _ hasCode := receiving.asked_step hs hasCode
    decided _ _ _ hasCode selected := receiving.decided_step hs fifo whole hasCode selected
    blocked _ _ _ _ selected blocked waits :=
      receiving.blocked_step hs fifo selected blocked waits }

end

end

end Machine

end Scars
