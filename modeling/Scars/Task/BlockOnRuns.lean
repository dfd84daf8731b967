import Scars.Task.DrainedQueue
import Scars.Task.ExecutorWakeups

/-! The thread executor does not sleep over a wake.
A task that is pushed after the drain has its event outstanding until the wait of `block_on`
returns: no other wait of the executor's thread takes the event.
-/

namespace Scars

open Memory Runs Function

/-- What waits for other events goes on with waits for other events. -/
theorem Continues.takesWakeup {instr : Instr} {more : List Instr}
    (continues : Continues instr more) (silent : instr.takesWakeup = false)
    : ∀ next ∈ more, next.takesWakeup = false := by
  cases continues with
  | @tried events =>
      have he : events.withoutFlag.wakesExecutor = events.wakesExecutor :=
        getLsbD_withoutFlag events (by decide)
      simpa [waitEventsCode, Instr.takesWakeup, he] using silent
  | acquired body restoreState =>
      refine List.forall_mem_append.mpr ⟨?_, List.forall_mem_singleton.mpr rfl⟩
      cases body with
      | op method => cases method <;> simp [Section.code, Instr.takesWakeup]
      | waitCurrentThreadEvent events deadline => simp [Section.code, Instr.takesWakeup]
      | closure mayBlock => simp [Section.code, Instr.takesWakeup]
  | notified popped =>
      rcases popped with _ | thread | handler <;> simp [notifyCode, resumeCode, Instr.takesWakeup]
  | notifiesNext popped =>
      rcases popped with _ | thread | handler <;> simp [notifyCode, resumeCode, Instr.takesWakeup]
  | _ => simp [Instr.takesWakeup, resumeCode, interruptExit]

/-- No wait for the event is to return in the code. -/
def Silent (code : List Instr) : Prop := ∀ instr ∈ code, instr.takesWakeup = false

/-- The wait of `block_on` is to return in the code, and no other wait for the event. -/
def Awaits (code : List Instr) : Prop :=
  ∃ before timed after,
    code = before ++ .access (.collectEvents Events.EXECUTOR_WAKEUP_EVENT timed) :: after
    ∧ Silent (before ++ after)

def Expects (waiting : Prop) (code : List Instr) : Prop :=
  (waiting → Awaits code) ∧ (¬ waiting → Silent code)

variable {waiting : Prop} {instr : Instr} {more rest : List Instr}

theorem Expects.replace (expects : Expects waiting (instr :: rest))
    (silent : instr.takesWakeup = false) (adds : Silent more)
    : Expects waiting (more ++ rest) := by
  refine ⟨fun waits => ?_, fun awake => ?_⟩
  · obtain ⟨before, timed, after, he, others⟩ := expects.1 waits
    cases before with
    | nil =>
        cases he
        cases silent
    | cons first before =>
        cases he
        refine ⟨more ++ before, timed, after, by simp, ?_⟩
        rw [List.append_assoc]
        exact List.forall_mem_append.mpr ⟨adds, fun next hm => others next (by simp [hm])⟩
  · exact List.forall_mem_append.mpr
      ⟨adds, fun next hm => expects.2 awake next (by simp [hm])⟩

theorem Expects.taken (expects : Expects waiting (instr :: rest)) (takes : instr.takesWakeup = true)
    : waiting ∧ Silent rest ∧ ∃ timed,
        instr = .access (.collectEvents Events.EXECUTOR_WAKEUP_EVENT timed) := by
  by_cases waits : waiting
  · obtain ⟨before, timed, after, he, others⟩ := expects.1 waits
    cases before with
    | nil =>
        cases he
        exact ⟨waits, others, timed, rfl⟩
    | cons first before =>
        cases he
        rw [others instr (by simp)] at takes
        cases takes
  · rw [expects.2 waits instr (by simp)] at takes
    cases takes

namespace ExecutorThread

variable {state next : ExecutorThread} {fuel : Nat} {program : Program} {thread : ThreadId}
  {event : Machine.Event} {machine : Machine}

/-- Only the wait of `block_on` takes the event, and what is pending after the drain has it sent. -/
structure Mindful (state : ExecutorThread) : Prop where
  answering : state.Answering
  inOrder : state.polling.InOrder
  expects : Expects (state.polling.place = .waiting) (state.code state.thread)
  announced
    : state.polling.drained = true
      → state.pendingReadyQueue = []
        ∨ (∃ context, state.resuming context = some .pushed)
        ∨ state.owes = true

theorem start_mindful (program : Program) (thread : ThreadId)
    : (start program thread).Mindful where
  answering := start_answering program thread
  inOrder := by simp [Polling.InOrder, start, Polling.start]
  expects := by
    refine ⟨fun waits => (by cases waits), fun _ => ?_⟩
    exact List.forall_mem_singleton.mpr rfl
  announced drained := by cases drained

theorem idle_of_isOwn (own : state.isOwn = true)
    : state.frames = [] ∧ state.raw.currentThread = state.thread := by
  have context := beq_iff_eq.mp own
  unfold Machine.context at context
  split at context
  next idle => exact ⟨idle, ExecutionContext.thread.inj context⟩
  · cases context

theorem isOwn_of_idle (idle : state.frames = []) (current : state.raw.currentThread = state.thread)
    : state.isOwn = true := by
  simp [isOwn, Machine.context, idle, current]

theorem code_of_notOwn (other : state.isOwn = false)
    (ran : state.toMachine.step fuel event = .ok machine)
    : machine.code state.thread = state.code state.thread := by
  by_cases current : state.raw.currentThread = state.thread
  · obtain ⟨top, below, active⟩ : ∃ top below, state.frames = top :: below := by
      refine List.exists_cons_of_ne_nil fun idle => ?_
      rw [isOwn_of_idle idle current] at other
      cases other
    cases Machine.step_ok ran with
    | instr => rw [Machine.code_goOn, Machine.code_setRunning_of_frame active]
    | restore => rfl
    | call => rw [Machine.code_setRunning_of_frame active]
    | finish => rw [Machine.code_setRunning_of_frame active]
    | fire => rfl
  · exact Machine.code_of_notCurrent ran (Ne.symm current)

section

variable (mindful : state.Mindful)
include mindful

/-- The executor's thread takes the event in the return of the wait of `block_on`. -/
theorem Mindful.returns_of_takes (own : state.isOwn = true)
    (hrun : state.running = instr :: rest) (takes : instr.takesWakeup = true) (now : Instant)
    : state.returns (.exec now) = true := by
  obtain ⟨idle, current⟩ := idle_of_isOwn own
  have expects := mindful.expects
  rw [← current, ← Machine.running_of_thread idle, hrun] at expects
  simp [returns, own, hrun, takes, (expects.taken takes).1]

theorem Mindful.expects_runs (permitted : state.permits event = true)
    (ran : state.toMachine.step fuel event = .ok machine) (inside : state.returns event = false)
    : Expects (state.polling.place = .waiting) (machine.code state.thread) := by
  have expects := mindful.expects
  cases own : state.isOwn with
  | false => rwa [code_of_notOwn own ran]
  | true =>
      obtain ⟨idle, current⟩ := idle_of_isOwn own
      rw [← current, ← Machine.running_of_thread idle] at expects
      rw [← current]
      cases Machine.step_ok ran with
      | @instr now instr rest more memory hrun hp =>
          rw [Machine.code_goOn, Machine.code_setRunning_of_thread idle, update_self]
          rw [hrun] at expects
          have silent : instr.takesWakeup = false := by
            by_contra takes
            rw [mindful.returns_of_takes own hrun (by simpa using takes)] at inside
            cases inside
          exact expects.replace silent ((Instr.perform_continues hp).takesWakeup silent)
      | restore active => rw [idle] at active; cases active
      | @call call rest hrun ha =>
          rw [Machine.code_setRunning_of_thread idle, update_self]
          rw [hrun] at expects
          have silent : Silent (call.code ++ [.user]) := by
            refine List.forall_mem_append.mpr ⟨?_, List.forall_mem_singleton.mpr rfl⟩
            simpa [permits, mayCall, own] using (Bool.and_eq_true_iff.mp permitted).2
          simpa using expects.replace rfl silent
      | finish hrun =>
          rw [Machine.code_setRunning_of_thread idle, update_self]
          rw [hrun] at expects
          exact expects.replace rfl (List.forall_mem_nil _)
      | fire => rwa [Machine.running_of_thread idle] at expects

/-- What was announced stays so until the wait of `block_on` returns. -/
theorem Mindful.announced_runs (ran : state.toMachine.step fuel event = .ok machine)
    (inside : state.returns event = false)
    (announced : (∃ context, state.resuming context = some .pushed) ∨ state.owes = true)
    : (∃ context, state.stages event context = some .pushed)
      ∨ (machine.outstanding state.thread).wakesExecutor = true := by
  have sends {now : Instant} {events : Events} {rest : List Instr} (isExec : event = .exec now)
      (hrun : state.running = .access (.sendEvents state.thread events) :: rest)
      (wakes : events.wakesExecutor = true)
      : (machine.outstanding state.thread).wakesExecutor = true := by
    subst isExec
    exact Machine.outstanding_sent hrun mindful.answering.receiving.consuming
      mindful.answering.receiving.serving ran (by decide) wakes
  rcases announced with ⟨context, marked⟩ | owed
  · rcases stages_cases state event context with
      he | ⟨now, events, rest, isExec, hrun, wakes, -⟩ | ⟨_, _, _, -, -, -, later⟩
    · exact Or.inl ⟨context, he.trans marked⟩
    · exact Or.inr (sends isExec hrun wakes)
    · rw [marked] at later
      cases later
  · right
    rcases Machine.outstanding_step mindful.answering.receiving.consuming
        mindful.answering.receiving.serving ran state.thread (show 28 < 29 by decide) with
      he | ⟨now, events, rest, isExec, hrun, wakes⟩
      | ⟨now, events, timed, rest, rfl, current, hrun, takes, -⟩
    · exact he.trans owed
    · exact sends isExec hrun wakes
    · have idle := mindful.answering.receiving.consuming.idle_of_endsWait hrun rfl
      rw [mindful.returns_of_takes (isOwn_of_idle idle current.symm) hrun takes] at inside
      cases inside

theorem Mindful.returned (ran : state.toMachine.step fuel event = .ok machine)
    (outside : state.returns event = true)
    : Silent (machine.code state.thread) := by
  cases event with
  | exec now =>
      simp only [returns, Bool.and_eq_true] at outside
      obtain ⟨⟨own, -⟩, takes⟩ := outside
      obtain ⟨idle, current⟩ := idle_of_isOwn own
      have expects := mindful.expects
      rw [← current, ← Machine.running_of_thread idle] at expects
      rw [← current]
      cases Machine.step_ok ran with
      | @instr now instr rest more memory hrun hp =>
          rw [hrun] at expects takes
          obtain ⟨-, silent, timed, rfl⟩ := expects.taken takes
          cases hp
          rw [Machine.code_goOn, Machine.code_setRunning_of_thread idle, update_self]
          exact silent
      | restore active => rw [idle] at active; cases active
  | call => cases outside
  | finish => cases outside
  | fire => cases outside

/-- The call that `block_on` makes is the wait for its event. -/
theorem Mindful.awaits_call {polling : Polling} (awake : state.polling.place ≠ .waiting)
    (own : state.isOwn = true)
    (called : state.toMachine.step fuel (.call polling.waitCall) = .ok machine)
    : Awaits (machine.code state.thread) ∧ machine.toMemory = state.toMemory := by
  obtain ⟨idle, current⟩ := idle_of_isOwn own
  have silent := mindful.expects.2 awake
  rw [← current, ← Machine.running_of_thread idle] at silent
  cases Machine.step_ok called with
  | @call call rest hrun ha =>
      rw [hrun] at silent
      refine ⟨?_, Machine.toMemory_setRunning _ _⟩
      rw [← current, Machine.code_setRunning_of_thread idle, update_self]
      have code : ∃ deadline,
          polling.waitCall.code = waitEventsCode Events.EXECUTOR_WAKEUP_EVENT deadline := by
        unfold Polling.waitCall
        split
        · exact ⟨none, rfl⟩
        · exact ⟨some _, rfl⟩
      obtain ⟨deadline, code⟩ := code
      rw [code]
      refine ⟨[.syscall _, .access .clearWaitedEvents], deadline.isSome, .user :: rest, rfl, ?_⟩
      intro next hm
      simp only [List.cons_append, List.nil_append, List.mem_cons] at hm
      rcases hm with rfl | rfl | rfl | later
      · rfl
      · rfl
      · rfl
      · exact silent next (by simp [later])

end

/-- The pending queues of the scheduler are FIFO queues: what is refused is pushed as on such a
queue, and other nodes hold the same items.
-/
def TakesFifos (fuel : Nat) (state : ExecutorThread) : ExecutorEvent → Prop
  | .machine event => state.toMachine.PushesFifo fuel event
  | .requeue pending => SameFifos state.pending pending
  | _ => True

/-- Every step keeps what is pending past the drain announced, by cases on who takes it. -/
theorem Mindful.step (mindful : state.Mindful) {event : ExecutorEvent}
    (fifo : state.TakesFifos fuel event) (hs : state.step fuel event = .ok next)
    : next.Mindful := by
  cases event with
  | machine event =>
      obtain ⟨permitted, hs⟩ := checked_ok.mp hs
      obtain ⟨machine, ran, hs⟩ := bind_ok.mp hs
      obtain ⟨polling, polled, he⟩ := bind_ok.mp hs
      cases he
      have answering
        : { state with
            toMachine := machine, polling := polling, resuming := state.stages event }.Answering :=
        mindful.answering.step ran rfl rfl fifo
      unfold pollingAfter at polled
      split at polled
      next outside =>
        unfold Polling.step at polled
        dsimp only at polled
        split at polled
        · cases polled
          refine ⟨answering, fun rest he => ?_,
            ⟨fun waits => (by cases waits), fun _ => mindful.returned ran outside⟩,
            fun drained => (by cases drained)⟩
          cases he
          exact List.suffix_rfl
        · cases polled
      next inside =>
        cases polled
        have inside := eq_false_of_ne_true inside
        refine ⟨answering, mindful.inOrder, mindful.expects_runs permitted ran inside, ?_⟩
        intro drained
        exact (mindful.announced drained).imp_right (mindful.announced_runs ran inside)
  | resumeTask task =>
      obtain ⟨⟨-, idle⟩, hs⟩ := checked_ok.mp hs
      obtain ⟨-, he⟩ := refused_ok.mp hs
      cases he
      refine ⟨mindful.answering.of_machine rfl rfl fun context marked => ?_, mindful.inOrder,
        mindful.expects, fun _ => Or.inr (Or.inl ⟨state.context, update_self _ _ _⟩)⟩
      refine (update_of_ne ?_ _ _).trans marked
      rintro rfl
      rw [idle] at marked
      cases marked
  | poll event =>
      obtain ⟨⟨isTurn, own, awake, -, -⟩, hs⟩ := checked_ok.mp hs
      obtain ⟨⟨polling, pending⟩, turned, hs⟩ := bind_ok.mp hs
      obtain ⟨machine, called, he⟩ := bind_ok.mp hs
      cases he
      obtain ⟨inOrder, drains⟩ := Polling.drains_turn mindful.inOrder isTurn turned
      have announced (drained : polling.drained = true)
          : pending = [] ∨ (∃ context, state.resuming context = some .pushed)
            ∨ state.owes = true := by
        rcases drains drained with empty | ⟨before, he⟩
        · exact Or.inl empty
        · rw [he]
          exact mindful.announced before
      unfold machineAfter at called
      split at called
      next waiting =>
        obtain ⟨awaits, memory⟩ := mindful.awaits_call awake own called
        refine ⟨mindful.answering.step called rfl rfl ?_, inOrder,
          ⟨fun _ => awaits, fun awake => absurd waiting awake⟩, fun drained => ?_⟩
        · rintro now body rest he
          cases he
        · rw [owes, memory]
          exact announced drained
      next elsewhere =>
        cases called
        exact ⟨mindful.answering.of_machine rfl rfl fun _ => id, inOrder,
          ⟨fun waits => absurd waits elsewhere, fun _ => mindful.expects.2 awake⟩, announced⟩
  | requeue pending =>
      cases hs
      exact ⟨mindful.answering.requeue fifo, mindful.inOrder, mindful.expects, mindful.announced⟩

/-- In every run of threads, interrupts, `block_on` and calls of `resume_task`, with the atomic
queues as FIFO queues: when the executor's thread is blocked in the wait of `block_on`, then
`pending_ready_queue` is empty, or a request to resume the thread is pending, or a call of
`resume_task` is between its push and the decision of its `send_events`. Witness: what is pending
after the drain has its event outstanding, and an outstanding event is answered.
-/
theorem executor_not_asleep_over_wake {state : ExecutorThread}
    (reached
      : Reaches (step fuel) (fun state event => state.TakesFifos fuel event)
          (start program thread) state)
    {timed : Bool} (blocked : state.raw.state state.thread = .blocked)
    (waits
      : state.code state.thread
        = .access .clearWaitedEvents
          :: .access (.collectEvents Events.EXECUTOR_WAKEUP_EVENT timed) :: rest)
    : state.pendingReadyQueue = []
      ∨ state.ResumePending state.thread
      ∨ ∃ context, state.resuming context ≠ none := by
  have mindful : state.Mindful :=
    reached.invariant Mindful (start_mindful program thread)
      fun _ _ _ mindful fifo ran => mindful.step fifo ran
  have waiting : state.polling.place = .waiting := by
    by_contra awake
    have silent : Events.EXECUTOR_WAKEUP_EVENT.wakesExecutor = false :=
      mindful.expects.2 awake (.access (.collectEvents _ timed)) (by simp [waits])
    revert silent
    decide
  have drained : state.polling.drained = true := by simp [Polling.drained, waiting]
  rcases mindful.announced drained with empty | ⟨context, marked⟩ | owed
  · exact Or.inl empty
  · exact Or.inr (Or.inr ⟨context, by simp [marked]⟩)
  · rcases mindful.answering.blocked timed rest blocked waits owed with
      pending | ⟨context, marked⟩
    · exact Or.inr (Or.inl pending)
    · exact Or.inr (Or.inr ⟨context, by simp [marked]⟩)

/-- Refused requests find their nodes free. -/
def parksFree (state : ExecutorThread) : ExecutorEvent → Bool
  | .machine event => state.toMachine.parksFree event
  | .requeue _ => false
  | _ => true

/-- Thread 2 blocks on task 7 and waits; a handler wakes the task, which is polled again; the next
wake comes while the thread is in the second wait and about to be blocked.
-/
def wokenTwice : List ExecutorEvent :=
  let exec (steps : Nat) : List ExecutorEvent := List.replicate steps (.machine (.exec 0))
  let turns (steps : Nat) : List ExecutorEvent :=
    List.replicate steps (.poll (.advance fun _ => 0))
  let wait : List ExecutorEvent := .poll (.endPoll false) :: turns 1
  let wake : List ExecutorEvent :=
    [.machine (.fire 5), .resumeTask 7,
      .machine (.call (.sendEvents 2 Events.EXECUTOR_WAKEUP_EVENT))]
  .machine (.call (.start 2)) :: exec 26 ++ .poll (.blockOn 7) :: turns 4 ++ wait ++ exec 17
    ++ wake ++ exec 12 ++ .machine .finish :: exec 16 ++ turns 5 ++ wait ++ exec 5
    ++ wake ++ exec 3 ++ .machine .finish :: exec 2

/-- Witness: the thread is blocked with the task pending, and is about to be resumed. -/
theorem executor_not_asleep_over_wake_twice
    : let program : Program :=
        ⟨fun thread => .thread thread.toUInt8, fun _ => .interrupt 4, fun _ => .interrupt 3⟩
      ∃ state : ExecutorThread,
        run (step 3) (start program 2) wokenTwice = .ok state
        ∧ state.raw.state 2 = .blocked
        ∧ state.pendingReadyQueue = [7]
        ∧ (state.ResumePending 2 ∨ ∃ context, state.resuming context ≠ none) := by
  intro program
  have seen
      : (run (step 3) (start program 2) wokenTwice).map (fun state =>
          (state.thread, state.raw.state 2, state.pendingReadyQueue, state.code 2))
        = .ok (2, .blocked, [7], [.access .clearWaitedEvents,
            .access (.collectEvents Events.EXECUTOR_WAKEUP_EVENT false), .user]) := by
    decide +kernel
  obtain ⟨state, ran, seen⟩ := map_ok.mp seen
  simp only [Prod.mk.injEq] at seen
  obtain ⟨own, blocked, pending, waits⟩ := seen
  have checked : allows (step 3) parksFree (start program 2) wokenTwice = true := by
    decide +kernel
  have fifos
      : Reaches (step 3) (fun state event => state.TakesFifos 3 event) (start program 2) state := by
    refine (Reaches.run_allowed parksFree .here checked ran).mono fun state event free => ?_
    cases event with
    | machine event => exact Machine.pushesFifo_of_parksFree free
    | resumeTask task => trivial
    | poll event => trivial
    | requeue pending => cases free
  have answered := executor_not_asleep_over_wake fifos (own.symm ▸ blocked) (own.symm ▸ waits)
  rw [pending, own] at answered
  exact ⟨state, ran, blocked, pending, answered.resolve_left (List.cons_ne_nil _ _)⟩

end ExecutorThread

end Scars
