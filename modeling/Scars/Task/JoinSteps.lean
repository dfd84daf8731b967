import Scars.Task.Joining
import Scars.Task.SteadyPolling

/-! Joining on a thread executor, step by step.
If `join` is called outside of polls, for a task that still runs and has no link in use, the
executor queues, polls and blocks on running tasks only.
-/

namespace Scars.Joining

open Runs Executor Polling Function
open Outcome (Meets)

variable {T : Type} {fuel : Nat} {state next : Joining T} {task : TaskId} {output : Option T}

/-- A slot is initialised, and a task joined or its handle dropped, outside of polls. The new
control block is not the head of a queue with tasks; a joined task runs with no link in use; a
task has no link in use when it finishes, nor when its handle is dropped while it runs; a waker is
called while its task runs, and it and the other steps find the links free that they use.
-/
def fits (state : Joining T) : JoinEvent T → Bool
  | .spawn task | .blockOn task =>
      !state.inPoll
        && (decide (state.pendingReadyQueue.loadHead () ≠ .item task)
          || (state.pendingReadyQueue.isEmpty ()).1)
  | .join task =>
      !state.inPoll && decide ((state.slot task).state = .running) && !state.linked task
  | .dropHandle task =>
      !state.inPoll && (decide ((state.slot task).state ≠ .running) || !state.linked task)
  | .advance clock => calm state.toPolling (.advance clock)
  | .sleepUntil deadline => calm state.toPolling (.op (.sleepUntil deadline))
  | .endPoll (some _) =>
      match state.place with
      | .running task => !state.linked task
      | _ => true
  | .endPoll none => true
  | .wakeup => true
  | .wake task =>
      decide ((state.slot task).state = .running) && calm state.toPolling (.wake task)

theorem fits_init (well : fits state (.spawn task) = true)
    : state.inPoll = false
      ∧ (state.pendingReadyQueue.loadHead () = .item task
        → (state.pendingReadyQueue.isEmpty ()).1 = true) := by
  simp only [fits, Bool.and_eq_true, Bool.or_eq_true, Bool.not_eq_true', decide_eq_true_eq] at well
  exact ⟨well.1, fun head => well.2.resolve_left fun hne => hne head⟩

/-- The executor queues, polls and blocks on running tasks only. -/
def Joined (state : Joining T) : Prop :=
  Steady (fun task => (state.slot task).state = .running) state.toPolling

theorem joined_start : Joined (start T) := steady_start

theorem linked_iff
    : state.linked task = true ↔ state.awake task = true ∨ state.inSleepList task = true :=
  Bool.or_eq_true_iff

theorem not_linked_iff
    : state.linked task = false ↔ state.awake task = false ∧ state.inSleepList task = false :=
  Bool.or_eq_false_iff

theorem Joined.running_of_linked (joined : Joined state) (linked : state.linked task = true)
    : (state.slot task).state = .running :=
  joined.allowed_of_linked (linked_iff.mp linked)

theorem onPolling_ok {event : PollEvent} (hs : state.onPolling fuel event = .ok next)
    : ∃ polling, state.toPolling.step fuel event = .ok polling
        ∧ next = { state with toPolling := polling } := by
  obtain ⟨polling, ran, he⟩ := bind_ok.mp hs
  cases he
  exact ⟨polling, ran, rfl⟩

/-- If a transfer has room for the pending tasks, the fault says that the step cannot be taken. -/
def Refuses (fuel : Nat) (state : Joining T) (fault : Fault) : Prop :=
  ∀ fifos,
    Represents state.pendingReadyQueue fifos
    → (fifos.items ()).length ≤ fuel
    → fault = .notCallable

theorem Joined.meets_onPolling (joined : Joined state) (event : PollEvent)
    (quiet : calm state.toPolling event = true)
    (hrun : ∀ task, event.readies = some task → (state.slot task).state = .running)
    (apart : conflicts (fuel + 1) state.toPolling event = false)
    : Meets Joined (Refuses fuel state) (state.onPolling (fuel + 1) event) := by
  cases hs : state.onPolling (fuel + 1) event with
  | ok next =>
      obtain ⟨polling, ran, rfl⟩ := onPolling_ok hs
      exact joined.step event quiet hrun ran
  | error fault =>
      exact fun fifos hr few =>
        Steady.step_error hr few joined quiet apart (bind_pure_error.mp hs)

/-- A slot may change when its task runs afterwards or did not run before, or is linked nowhere
and neither polled nor blocked on.
-/
theorem Joined.setSlot (joined : Joined state) {slot : Slot}
    (kept
      : slot.state = .running
        ∨ (state.slot task).state ≠ .running
        ∨ state.linked task = false ∧ state.place ≠ .running task
          ∧ (state.place = .outside ∨ state.blockOnTask ≠ task))
    : Joined (state.setSlot task slot) := by
  refine joined.mono fun other here hrun => ?_
  by_cases he : other = task
  case neg => simpa [Joining.setSlot, he] using hrun
  case pos =>
      subst he
      rcases kept with stays | stopped | ⟨loose, idle, unblocked⟩
      · simpa [Joining.setSlot] using stays
      · exact absurd hrun stopped
      · obtain ⟨asleep, unlisted⟩ := not_linked_iff.mp loose
        rcases here with awake | sleeping | polled | ⟨inside, blocks⟩
        · exact absurd (asleep.symm.trans awake) Bool.false_ne_true
        · exact absurd (unlisted.symm.trans sleeping) Bool.false_ne_true
        · exact absurd polled idle
        · exact absurd blocks (unblocked.resolve_left inside)

theorem init_ok (initialised : state.init task = .ok next)
    : (state.slot task).state = .free
      ∧ state.linked task = false
      ∧ next = { state.setSlot task (state.slot task).claim.init with
          toExecutor := Slots.resetNode task state.toExecutor } := by
  obtain ⟨free, rest⟩ := checked_ok.mp initialised
  obtain ⟨loose, he⟩ := refused_ok.mp rest
  exact ⟨free, by simpa using loose, (Except.ok.inj he).symm⟩

theorem Joined.meets_init (joined : Joined state)
    (bare
      : state.pendingReadyQueue.loadHead () = .item task
        → (state.pendingReadyQueue.isEmpty ()).1 = true)
    : Meets
        (fun next =>
          Joined next
          ∧ (next.slot task).state = .running
          ∧ next.awake task = false
          ∧ next.place = state.place)
        (Refuses fuel state) (state.init task) := by
  unfold Joining.init
  split
  next notRunning =>
    split
    next linked =>
      rw [joined.running_of_linked linked] at notRunning
      cases notRunning
    next loose =>
      obtain ⟨asleep, _⟩ := not_linked_iff.mp (eq_false_of_ne_true loose)
      have free : state.pendingReadyQueue.isLinked task = false := by
        rw [Bool.eq_false_iff, Ne, awake_iff, not_or] at asleep
        exact Bool.eq_false_iff.mpr asleep.1
      have set : Joined (state.setSlot task (state.slot task).claim.init) :=
        joined.setSlot (.inl rfl)
      refine ⟨set.resetNode free bare, by simp [Joining.setSlot, Slot.init], ?_, rfl⟩
      exact (awake_resetNode free task).trans asleep
  · exact fun _ _ _ => rfl

theorem Joined.takeHandle (joined : Joined state) (task : TaskId)
    : Joined (state.takeHandle task) :=
  joined

theorem enterBlockOn_eq (joined : Joined state) (outside : state.place = .outside)
    (asleep : state.awake task = false)
    : state.enterBlockOn task
      = .ok { state with
          readyQueue := state.readyQueue ++ [task], place := .resuming blockOnResumptions
          blockOnTask := task, woken := update state.woken task true } := by
  have free : state.borrowed .ready = false := joined.guarded.free (by simp [holdsGuard, outside]) _
  rw [Joining.enterBlockOn, if_pos (.inl outside), joined.attentive.toWaking.spawn_eq asleep free]
  rfl

theorem Joined.meets_enterBlockOn (joined : Joined state) (quiet : state.inPoll = false)
    (hrun : (state.slot task).state = .running) (asleep : state.awake task = false)
    : Meets Joined (· = .notCallable) (state.enterBlockOn task) := by
  by_cases outside : state.place = .outside
  case pos =>
      rw [enterBlockOn_eq joined outside asleep]
      have free : state.borrowed .ready = false :=
        joined.guarded.free (by simp [holdsGuard, outside]) _
      have blocks : state.toPolling.step 1 (.blockOn task)
          = .ok { state.toPolling with
              readyQueue := state.readyQueue ++ [task], place := .resuming blockOnResumptions
              blockOnTask := task } := by
        simp only [Polling.step, blockOn]
        rw [if_pos ⟨joined.thread, outside⟩, joined.attentive.toWaking.spawn_eq asleep free]
        rfl
      have steady := joined.step (.blockOn task) (by simpa [calm] using asleep)
        (fun other he => Option.some.inj he ▸ hrun) blocks
      exact steady.noteWoken (awake_iff.mpr (.inr (by simp)))
  case neg =>
      rw [Joining.enterBlockOn, if_neg (by simp [outside, quiet])]
      rfl

theorem Joined.spawn_error (joined : Joined state) (quiet : state.inPoll = false)
    (asleep : state.awake task = false) {fault : Fault}
    (fails : state.onPolling fuel (.op (.spawn task)) = .error fault)
    : fault = .notCallable := by
  rw [Joining.onPolling, bind_pure_error] at fails
  cases here : state.place with
  | outside =>
      have free := joined.guarded.free (by simp [holdsGuard, here]) .ready
      simp only [Polling.step, here, Polling.perform,
        joined.attentive.toWaking.spawn_eq asleep free] at fails
      cases fails
  | running other => simp [inPoll, here] at quiet
  | resuming | polling | waiting =>
      simp only [Polling.step, here] at fails
      cases fails
      rfl

theorem endPoll_continues (joined : Joined state) (here : state.place = .running task)
    (other : output = none ∨ task ≠ state.blockOnTask)
    : state.endPoll fuel output = .ok { state.finish task output with place := .polling } := by
  have he : (state.finish task output).toPolling = state.toPolling := by
    cases output <;> rfl
  have unfinished : ¬ (output.isSome = true ∧ task = state.blockOnTask) := by
    rintro ⟨finished, blocks⟩
    rcases other with rfl | hne
    · cases finished
    · exact hne blocks
  simp only [Joining.endPoll, here, Joining.onPolling, he]
  rw [Polling.endPoll_eq joined.thread here, if_neg unfinished]
  rfl

/-- The state after `block_on` returned the output of its task. -/
def handOver (executor : Executor) (task : TaskId) (output : T) (state : Joining T) : Joining T :=
  { state.setSlot task (state.slot task).finish.readOutput.dropHandle with
    toExecutor := executor, place := .outside
    output := update state.output task none
    returned := state.returned ++ [(task, output)] }

/-- The poll of the task that `block_on` waits for returns, and `block_on` with it. -/
theorem endPoll_returns (joined : Joined state) (here : state.place = .running task)
    (blocks : task = state.blockOnTask) (output : T)
    : state.endPoll fuel (some output)
      = (do
          let executor ← (state.release .ready).resumePendingTasks fuel true
          return state.handOver executor task output) := by
  simp only [Joining.endPoll, here, Joining.onPolling]
  have he : (state.finish task (some output)).toPolling = state.toPolling := rfl
  rw [he, Polling.endPoll_eq joined.thread here, if_pos ⟨rfl, blocks⟩]
  simp only [bind, Except.bind, pure, Except.pure, if_true]
  simp only [Joining.readOutput, Joining.finish, Joining.setSlot, update_self, Slot.finish,
    handOver, update_idem]
  rfl

/-- `block_on` goes on after a poll of another task, or of its own that is pending. -/
theorem Joined.endPoll_other (joined : Joined state) (here : state.place = .running task)
    (other : output = none ∨ task ≠ state.blockOnTask)
    (loose : output.isSome = true → state.linked task = false)
    : Joined { state.finish task output with place := .polling } := by
  have unfinished : ¬ (output.isSome = true ∧ task = state.blockOnTask) := by
    rintro ⟨finished, blocks⟩
    rcases other with rfl | hne
    · cases finished
    · exact hne blocks
  have returns : state.toPolling.step 1 (.endPoll output.isSome)
      = .ok { state.toPolling with place := .polling } := by
    rw [endPoll_eq joined.thread here, if_neg unfinished]
  have polled : Joined { state with place := .polling } :=
    joined.step (.endPoll output.isSome) rfl nofun returns
  cases output with
  | none => exact polled
  | some output =>
      refine polled.setSlot (.inr (.inr ⟨loose rfl, nofun, .inr fun blocks => ?_⟩))
      exact other.elim nofun fun hne => hne blocks.symm

/-- The task that `block_on` returned for is linked nowhere, so its slot is free to use. -/
theorem Joined.handOver (joined : Joined state) (here : state.place = .running task)
    (blocks : task = state.blockOnTask) (loose : state.linked task = false) {executor : Executor}
    (resumed : (state.release .ready).resumePendingTasks (fuel + 1) true = .ok executor)
    (output : T)
    : Joined (state.handOver executor task output) := by
  have returns : state.toPolling.step 1 (.endPoll true)
      = .ok { state.toPolling with toExecutor := state.release .ready, place := .outside } := by
    rw [endPoll_eq joined.thread here, if_pos ⟨rfl, blocks⟩]
  have returned : Joined { state with toExecutor := state.release .ready, place := .outside } :=
    joined.step (.endPoll true) rfl (by simp [PollEvent.readies]) returns
  have freed : Joined ({ state with toExecutor := state.release .ready, place := .outside }.setSlot
      task (state.slot task).finish.readOutput.dropHandle) :=
    returned.setSlot (.inr (.inr ⟨loose, by simp, .inl rfl⟩))
  have drops : { state.toPolling with
        toExecutor := state.release .ready, place := .outside }.step (fuel + 1) (.op .dropHandle)
      = .ok { state.toPolling with toExecutor := executor, place := .outside } := by
    simp only [Polling.step, Polling.perform, resumed]
    rfl
  exact freed.step (.op .dropHandle) rfl (by simp [PollEvent.readies]) drops

/-- The pending tasks are resumed after `block_on` dropped its guard. -/
theorem Joined.resumes (joined : Joined state) (here : state.place = .running task)
    (blocks : task = state.blockOnTask) {fifos : Fifos Unit TaskId}
    (hr : Represents state.pendingReadyQueue fifos) (few : (fifos.items ()).length ≤ fuel)
    : ∃ executor, (state.release .ready).resumePendingTasks (fuel + 1) true = .ok executor := by
  have returns : state.toPolling.step 1 (.endPoll true)
      = .ok { state.toPolling with toExecutor := state.release .ready, place := .outside } := by
    rw [endPoll_eq joined.thread here, if_pos ⟨rfl, blocks⟩]
  have released := Steady.step joined (.endPoll true) rfl nofun returns
  exact released.attentive.toWaking.resumePendingTasks_returns (by simp [Executor.release])
    hr few true

theorem Joined.meets_endPoll (joined : Joined state) (well : fits state (.endPoll output) = true)
    : Meets Joined (Refuses fuel state) (state.endPoll (fuel + 1) output) := by
  cases here : state.place with
  | running task =>
      have loose (finished : output.isSome = true) : state.linked task = false := by
        obtain ⟨value, rfl⟩ := Option.isSome_iff_exists.mp finished
        simpa [fits, here] using well
      by_cases other : output = none ∨ task ≠ state.blockOnTask
      case pos =>
          rw [endPoll_continues joined here other]
          exact joined.endPoll_other here other loose
      case neg =>
          rw [not_or, not_not] at other
          obtain ⟨value, rfl⟩ := Option.ne_none_iff_exists'.mp other.1
          rw [endPoll_returns joined here other.2]
          cases resumed : (state.release .ready).resumePendingTasks (fuel + 1) true with
          | ok executor => exact joined.handOver here other.2 (loose rfl) resumed value
          | error fault =>
              intro fifos hr few
              obtain ⟨executor, returns⟩ := joined.resumes here other.2 hr few
              rw [returns] at resumed
              cases resumed
  | outside | resuming | polling | waiting =>
      simp only [Joining.endPoll, here]
      exact fun _ _ _ => rfl

/-- The handle of a task that does not run, or is linked nowhere, is dropped outside of polls. -/
theorem Joined.meets_dropHandle (joined : Joined state) (quiet : state.inPoll = false)
    (well : (state.slot task).state ≠ .running ∨ state.linked task = false)
    : Meets Joined (Refuses fuel state) (state.dropHandle (fuel + 1) task) := by
  simp only [Joining.dropHandle]
  split
  next =>
    cases here : state.place with
    | outside =>
        have apart : conflicts (fuel + 1) state.toPolling (.op .dropHandle) = false := by
          simp [conflicts, quiet]
        have dropped
            : Joined { state.setSlot task (state.slot task).dropHandle with
                output := update state.output task none
                joinHandle := update state.joinHandle task false } :=
          joined.setSlot (.inr (well.imp_right fun loose => ⟨loose, by simp [here], .inl here⟩))
        exact (dropped.meets_onPolling (.op .dropHandle) rfl (by simp [PollEvent.readies])
          apart).tolerate fun _ refused => refused
    | running other => simp [inPoll, here] at quiet
    | resuming | polling | waiting =>
        simp only [Joining.onPolling, Polling.step, Joining.setSlot, here]
        exact fun _ _ _ => rfl
  next bare =>
    have stopped : (state.slot task).state ≠ .running := by
      intro hrun
      simp [hrun, SlotState.hasControlBlock] at bare
    exact joined.setSlot (.inr (.inl stopped))

/-- A step that fits keeps the invariant and does not panic. -/
theorem Joined.meets_step (joined : Joined state) {event : JoinEvent T}
    (well : fits state event = true)
    : Meets Joined (Refuses fuel state) (state.step (fuel + 1) event) := by
  have plain {event : PollEvent} (none : event.readies = none) (task : TaskId)
      (readies : event.readies = some task)
      : (state.slot task).state = .running := by
    rw [none] at readies
    cases readies
  cases event with
  | spawn task =>
      obtain ⟨quiet, bare⟩ := fits_init well
      refine (joined.meets_init bare).bind fun middle after => ?_
      obtain ⟨joined', hrun, asleep, place⟩ := after
      have quiet' : middle.inPoll = false := by rw [inPoll, place]; exact quiet
      cases spawned : middle.onPolling (fuel + 1) (.op (.spawn task)) with
      | ok last =>
          obtain ⟨polling, ran, rfl⟩ := onPolling_ok spawned
          have steady := joined'.step (.op (.spawn task)) (by simpa [calm] using asleep)
            (fun other he => Option.some.inj he ▸ hrun) ran
          exact steady.noteWoken (awake_of_spawn ran)
      | error fault => exact fun _ _ _ => joined'.spawn_error quiet' asleep spawned
  | blockOn task =>
      obtain ⟨quiet, bare⟩ := fits_init well
      refine (joined.meets_init bare).bind fun middle after => ?_
      obtain ⟨joined', hrun, asleep, place⟩ := after
      have quiet' : middle.inPoll = false := by rw [inPoll, place]; exact quiet
      exact (joined'.meets_enterBlockOn quiet' hrun asleep).tolerate fun _ he _ _ _ => he
  | join task =>
      obtain ⟨⟨quiet, hrun⟩, loose⟩
        : (state.inPoll = false ∧ (state.slot task).state = .running)
          ∧ state.linked task = false := by
        simpa [fits] using well
      unfold Joining.step
      dsimp only
      split
      · exact ((joined.takeHandle task).meets_enterBlockOn quiet hrun
          (not_linked_iff.mp loose).1).tolerate fun _ he _ _ _ => he
      · exact fun _ _ _ => rfl
  | dropHandle task =>
      obtain ⟨quiet, stopped⟩
        : state.inPoll = false
          ∧ ((state.slot task).state ≠ .running ∨ state.linked task = false) := by
        simpa [fits] using well
      unfold Joining.step
      dsimp only
      split
      · exact joined.meets_dropHandle quiet stopped
      · exact fun _ _ _ => rfl
  | advance clock => exact joined.meets_onPolling (.advance clock) well (plain rfl) rfl
  | sleepUntil deadline =>
      exact joined.meets_onPolling (.op (.sleepUntil deadline)) well (plain rfl) rfl
  | endPoll output => exact joined.meets_endPoll well
  | wakeup => exact joined.meets_onPolling .wakeup rfl (plain rfl) rfl
  | wake task =>
      obtain ⟨hrun, quiet⟩
        : (state.slot task).state = .running ∧ calm state.toPolling (.wake task) = true := by
        simpa [fits] using well
      exact joined.meets_onPolling (.wake task) quiet
        (fun other he => Option.some.inj he ▸ hrun) rfl

end Scars.Joining
