import Scars.Preemption.AttentiveWaits
import Scars.Preemption.EventAccounts
import Scars.Task.BlockOn

/-! The event of the thread executor is answered.
From the decision of its wait on, the executor's thread is resumed for an event that is
outstanding, or the sender has still to look at the waited mask.
-/

namespace Scars

open Memory Runs

theorem withoutFlag_wakeup
    : Events.EXECUTOR_WAKEUP_EVENT.withoutFlag = BitVec.twoPow 32 28 := by decide

theorem sendCheck_of_wakes {set : EventSet} {sent : Events}
    (waited : set.waitedEventsMask = Events.EXECUTOR_WAKEUP_EVENT)
    (wakes : sent.wakesExecutor = true)
    : set.sendCheck sent = true := by
  have some : Events.EXECUTOR_WAKEUP_EVENT.withoutFlag &&& sent ≠ 0 := by
    rw [withoutFlag_wakeup, BitVec.twoPow_and, if_pos (show sent.getLsbD 28 = true from wakes)]
    decide
  unfold EventSet.sendCheck EventSet.shouldNotify
  rw [waited, show Events.EXECUTOR_WAKEUP_EVENT.requireAll = false by decide]
  simp only [Bool.not_false, Bool.true_and, Bool.or_eq_true, bne_iff_ne]
  exact Or.inl some

namespace ExecutorThread

variable {state next : ExecutorThread} {fuel : Nat} {event : Machine.Event}
  {context : ExecutionContext} {rest : List Instr}

/-- A context sends the event, and then looks at the waited mask. -/
theorem stages_cases (state : ExecutorThread) (event : Machine.Event) (context : ExecutionContext)
    : state.stages event context = state.resuming context
      ∨ (∃ now events rest,
          event = .exec now
          ∧ state.running = .access (.sendEvents state.thread events) :: rest
          ∧ events.wakesExecutor = true
          ∧ state.stages event context = some .sent)
      ∨ ∃ now sent rest,
          event = .exec now
          ∧ state.running = .access (.checkWaitedEvents state.thread sent) :: rest
          ∧ sent.wakesExecutor = true
          ∧ state.resuming context = some .sent := by
  cases event with
  | exec now =>
      by_cases other : context = state.context
      · subst other
        simp only [stages, Function.update_self]
        unfold ResumeStage.after
        split
        next receiver events rest hrun =>
          split
          next sends =>
            obtain ⟨rfl, wakes⟩ := sends
            exact Or.inr (Or.inl ⟨now, events, rest, rfl, hrun, wakes, rfl⟩)
          · exact Or.inl rfl
        next receiver sent rest hrun =>
          split
          next looks =>
            obtain ⟨rfl, wakes, marked⟩ := looks
            exact Or.inr (Or.inr ⟨now, sent, rest, rfl, hrun, wakes, marked⟩)
          · exact Or.inl rfl
        · exact Or.inl rfl
      · exact Or.inl (Function.update_of_ne other _ _)
  | call => exact Or.inl rfl
  | finish => exact Or.inl rfl
  | fire => exact Or.inl rfl

theorem stages_of_sends {now : Instant} {events : Events}
    (hrun : state.running = .access (.sendEvents state.thread events) :: rest)
    (wakes : events.wakesExecutor = true)
    : state.stages (.exec now) state.context = some .sent := by
  simp [stages, hrun, ResumeStage.after, wakes]

/-- A request to resume the executor's thread is under way, or a sender is about to decide on
one.
-/
def Answers (state : ExecutorThread) : Prop :=
  state.ResumePending state.thread ∨ ∃ context, state.resuming context = some .sent

/-- The event is outstanding for the executor's thread. -/
def owes (state : ExecutorThread) : Bool := (state.outstanding state.thread).wakesExecutor

/-- An outstanding event is answered from the decision of the wait on, unless the wait has it. -/
structure Answering (state : ExecutorThread) : Prop where
  receiving
    : state.Receiving fun thread events =>
        thread = state.thread ∧ events = Events.EXECUTOR_WAKEUP_EVENT
  decided
    : ∀ deadline left,
        state.HasCode
          (.locked (.blockUnlessReceived Events.EXECUTOR_WAKEUP_EVENT deadline) :: left)
        → state.raw.currentThread = state.thread
        → state.owes = true
        → state.Answers ∨ (state.received state.thread).wakesExecutor = true
  blocked
    : ∀ timed rest,
        state.raw.state state.thread = .blocked
        → state.code state.thread
          = .access .clearWaitedEvents
            :: .access (.collectEvents Events.EXECUTOR_WAKEUP_EVENT timed) :: rest
        → state.owes = true
        → state.Answers

theorem start_answering (program : Program) (thread : ThreadId)
    : (start program thread).Answering where
  receiving := Machine.start_receiving program
  decided deadline left hasCode := by cases Machine.start_hasCode program hasCode
  blocked timed rest _ waits := by cases waits

/-- What the machine and the marks of other contexts do not see keeps the invariant. -/
theorem Answering.of_machine (answering : state.Answering)
    (machine : next.toMachine = state.toMachine) (thread : next.thread = state.thread)
    (marks
      : ∀ context, state.resuming context = some .sent → next.resuming context = some .sent)
    : next.Answering := by
  have answers (before : state.Answers) : next.Answers := by
    unfold Answers
    rw [machine, thread]
    exact before.imp_right fun ⟨context, marked⟩ => ⟨context, marks context marked⟩
  obtain ⟨receiving, decided, blocked⟩ := answering
  constructor
  · rw [machine, thread]
    exact receiving
  · unfold owes
    rw [machine, thread]
    exact fun deadline left hasCode current owed =>
      (decided deadline left hasCode current owed).imp_left answers
  · unfold owes
    rw [machine, thread]
    exact fun timed rest isBlocked waits owed => answers (blocked timed rest isBlocked waits owed)

/-- The new nodes hold the same items. -/
def SameFifos (pending pending' : QueueMemory PendingQueue Suspendable) : Prop :=
  ∀ fifos,
    Represents pending fifos → ∃ lastPopped, Represents pending' ⟨fifos.items, lastPopped⟩

/-- The nodes of the pending queues are seen by nobody. -/
theorem Answering.requeue (answering : state.Answering)
    {pending : QueueMemory PendingQueue Suspendable} (he : SameFifos state.pending pending)
    : { state with pending := pending }.Answering := by
  let state' : ExecutorThread := { state with pending := pending }
  have parks {thread : ThreadId} (before : state.ResumePending thread)
      : state'.ResumePending thread := by
    refine before.imp_left ?_
    rintro ⟨fifos, hr, hm⟩
    obtain ⟨lastPopped, hr'⟩ := he fifos hr
    exact ⟨_, hr', hm⟩
  have heeds {thread : ThreadId} (heeded : state.Heeded thread) : state'.Heeded thread :=
    fun enough => (heeded enough).imp_left parks
  have answers (before : state.Answers) : state'.Answers := before.imp_left parks
  obtain ⟨receiving, decided, blocked⟩ := answering
  obtain ⟨hx, settled, serving, consuming, ⟨fifos, hr⟩, prepared, enqueued,
    attentive⟩ := receiving
  obtain ⟨lastPopped, hr'⟩ := he fifos hr
  refine ⟨⟨?_, ?_, ?_, ?_, ⟨_, hr'⟩, prepared, enqueued, attentive.asked, ?_, ?_⟩,
    fun deadline left hasCode current owed =>
      (decided deadline left hasCode current owed).imp_left answers,
    fun timed rest isBlocked waits owed => answers (blocked timed rest isBlocked waits owed)⟩
  · exact ⟨hx.held, hx.others, hx.threads, hx.frames⟩
  · exact ⟨settled.headed, settled.listed⟩
  · exact ⟨serving.poised, serving.paired, serving.threads, serving.served, serving.inserted⟩
  · exact ⟨consuming.sequenced, consuming.ended, consuming.received, consuming.unconsumed⟩
  · intro events deadline left hasCode cares
    exact (attentive.decided events deadline left hasCode cares).imp_right (And.imp_left heeds)
  · intro thread events timed rest cares isBlocked waits
    exact (attentive.blocked thread events timed rest cares isBlocked waits).imp_right
      (And.imp_left heeds)

section

variable (answering : state.Answering) (ran : state.toMachine.step fuel event = .ok next.toMachine)
  (thread : next.thread = state.thread) (marks : next.resuming = state.stages event)
  (fifo : state.PushesFifo fuel event)

include answering ran thread marks fifo

/-- Who waits for the event is answered until it is resumed. -/
theorem Answers.step (answers : state.Answers)
    (waited
      : (state.raw.events state.thread).waitedEventsMask = Events.EXECUTOR_WAKEUP_EVENT)
    (notResumed
      : state.Resumes event state.thread → next.raw.state state.thread = .blocked)
    : next.Answers := by
  unfold Answers
  rw [thread, marks]
  rcases answers with pending | ⟨context, marked⟩
  · rcases pending.step answering.receiving.exclusive answering.receiving.intact fifo ran with
      pending | ⟨resumed, unblocked⟩
    · exact Or.inl pending
    · exact absurd (notResumed resumed) unblocked
  · rcases stages_cases state event context with
      he | ⟨now, events, rest, -, -, -, he⟩ | ⟨now, sent, rest, rfl, hrun, wakes, -⟩
    · exact Or.inr ⟨context, he.trans marked⟩
    · exact Or.inr ⟨context, he⟩
    · -- the sender looks at the waited mask
      refine Or.inl (Or.inr ?_)
      generalize next.toMachine = machine at ran
      cases Machine.step_ok ran with
      | @instr _ instr left more memory he hp =>
          rw [hrun] at he
          cases he
          have own :=
            (answering.receiving.exclusive.hasCode_goOn hrun hp).mpr (Or.inl rfl)
          refine ⟨_, own, .tryWith (.op (.resumeThread state.thread)), ?_, rfl⟩
          cases hp
          rw [sendCheck_of_wakes waited wakes]
          exact List.mem_cons_self
      | restore active ended =>
          rw [Machine.running_of_frame active, ended] at hrun
          cases hrun

/-- An event that is outstanding after a step was so before, or is sent in the step. -/
theorem owes_step (owed : next.owes = true)
    : state.owes = true ∨ ∃ context, next.resuming context = some .sent := by
  unfold owes Events.wakesExecutor at owed ⊢
  rw [thread] at owed
  rcases Machine.outstanding_step answering.receiving.consuming answering.receiving.serving ran
      state.thread (show 28 < 29 by decide) with
    he | ⟨now, events, rest, rfl, hrun, wakes⟩ | ⟨now, events, timed, rest, -, -, -, -, none⟩
  · exact Or.inl (he.symm.trans owed)
  · exact Or.inr ⟨state.context, by rw [marks]; exact stages_of_sends hrun wakes⟩
  · rw [none] at owed
    cases owed

theorem Answering.decided_step {deadline : Option Instant} {left : List Instr}
    (hasCode
      : next.HasCode
          (.locked (.blockUnlessReceived Events.EXECUTOR_WAKEUP_EVENT deadline) :: left))
    (current : next.raw.currentThread = next.thread) (owed : next.owes = true)
    : next.Answers ∨ (next.received next.thread).wakesExecutor = true := by
  have receiving := answering.receiving
  rcases Machine.prepared_step receiving.prepared receiving.serving receiving.consuming
      receiving.exclusive ran hasCode rfl with
    ⟨now, instr, rfl, hrun, precedes, hp⟩ | ⟨before, undisturbed⟩
  · -- the wait takes the event out of the sent mask
    have consumes := precedes.2 _ deadline rfl
    subst consumes
    obtain ⟨he, -, masks⟩ := consumeEvents_ok hp
    unfold owes Events.wakesExecutor at owed
    rw [getLsbD_outstanding (by decide), ← current, he, masks, BitVec.getLsbD_and,
      BitVec.getLsbD_not,
      show Events.EXECUTOR_WAKEUP_EVENT.withoutFlag.getLsbD 28 = true by decide] at owed
    simp only [Bool.not_true, Bool.and_false, Bool.false_or] at owed
    rw [← current, he]
    exact Or.inr owed
  · rw [thread, undisturbed.current] at current
    obtain ⟨waited, -, -⟩ :=
      receiving.attentive.decided _ deadline left before ⟨current, rfl⟩
    rcases owes_step answering ran thread marks fifo owed with owed | sent
    · rcases answering.decided deadline left before current owed with answers | received
      · exact Or.inl (answers.step answering ran thread marks fifo (current ▸ waited) fun resumed =>
          absurd resumed (undisturbed.notResumed _))
      · rw [thread, undisturbed.received]
        exact Or.inr received
    · exact Or.inl (Or.inr sent)

theorem Answering.blocked_step
    (receiving' : next.Receiving fun thread events =>
      thread = state.thread ∧ events = Events.EXECUTOR_WAKEUP_EVENT)
    {timed : Bool} (blocked : next.raw.state next.thread = .blocked)
    (waits
      : next.code next.thread
        = .access .clearWaitedEvents
          :: .access (.collectEvents Events.EXECUTOR_WAKEUP_EVENT timed) :: rest)
    (owed : next.owes = true)
    : next.Answers := by
  have receiving := answering.receiving
  rw [thread] at blocked waits
  have notCurrent' : state.thread ≠ next.raw.currentThread := by
    intro he
    rw [he, receiving'.settled.current_running] at blocked
    cases blocked
  obtain ⟨-, -, none, -⟩ :=
    receiving'.attentive.blocked state.thread _ timed rest ⟨rfl, rfl⟩ blocked waits
  rw [Machine.code_step receiving.exclusive ran notCurrent'] at waits
  rcases owes_step answering ran thread marks fifo owed with owed | sent
  · have going (answers : state.Answers)
        (waited
          : (state.raw.events state.thread).waitedEventsMask = Events.EXECUTOR_WAKEUP_EVENT)
        : next.Answers :=
      answers.step answering ran thread marks fifo waited fun _ => blocked
    rcases Machine.blocked_step ran blocked with before | ⟨op, left, hrun, blocking⟩
    · obtain ⟨waited, -, -, -⟩ :=
        receiving.attentive.blocked state.thread _ timed rest ⟨rfl, rfl⟩ before waits
      exact going (answering.blocked timed rest before waits owed) waited
    · -- the thread is blocked in this step, with nothing received
      obtain ⟨current, deadline, rfl⟩ :=
        Machine.blocks_of_waits receiving.serving receiving.enqueued waits hrun blocking
      obtain ⟨waited, -, -⟩ :=
        receiving.attentive.decided _ deadline left (Or.inl hrun.symm) ⟨current.symm, rfl⟩
      rcases answering.decided deadline left (Or.inl hrun.symm) current.symm owed with
        answers | received
      · exact going answers (current ▸ waited)
      · have he : next.received = state.received := by
          rcases Machine.memory_step ran with he | ⟨now, instr, _, more, -, head, hp⟩
          · rw [he]
          · cases hrun.symm.trans head
            rcases Instr.perform_received hp with kept | ⟨_, other, -⟩ | ⟨_, _, other, -⟩
            · exact kept
            · cases other
            · cases other
        rw [← he, none] at received
        simp [Events.wakesExecutor] at received
  · exact Or.inr sent

theorem Answering.step : next.Answering := by
  have whole
      : state.ConsumesWhole
          (fun thread events => thread = state.thread ∧ events = Events.EXECUTOR_WAKEUP_EVENT)
          event := by
    -- the event is a single bit
    rintro now events rest - - ⟨-, rfl⟩
    rw [withoutFlag_wakeup, BitVec.and_twoPow]
    split
    · exact Or.inr rfl
    · exact Or.inl rfl
  have receiving' := answering.receiving.step ran fifo whole
  refine ⟨by rw [thread]; exact receiving', ?_, ?_⟩
  · exact fun deadline left => answering.decided_step ran thread marks fifo
  · exact fun timed rest => answering.blocked_step ran thread marks fifo receiving'

end

end ExecutorThread

end Scars
