import Scars.Task.Borrows

/-! The borrows of an executor over whole runs, and which calls of a task panic.
In every reached state the ready queue is borrowed exactly while a task is polled, or the
thread executor is between two polls or waits.
-/

namespace Scars.Polling

open Runs Executor Function
open Outcome (Meets)

variable {fuel : Nat} {state next : Polling} {event : PollEvent}

/-- A guard of the ready queue is alive. -/
def holdsGuard (state : Polling) : Bool :=
  match state.place with
  | .running _ => true
  | .waiting => true
  | .polling => state.kind == .thread
  | .outside => false
  | .resuming _ => false

/-- What every step keeps. -/
structure Guarded (state : Polling) : Prop where
  ready : state.borrowed .ready = state.holdsGuard
  sleep : state.borrowed .sleep = false
  wfi : state.borrowed .wfi = false

theorem guarded_start (kind : ExecutorKind) : Guarded (start kind) := ⟨rfl, rfl, rfl⟩

theorem Guarded.free (guarded : Guarded state) (noGuard : state.holdsGuard = false)
    (queue : ExecutorQueue)
    : state.borrowed queue = false := by
  cases queue with
  | ready => exact guarded.ready.trans noGuard
  | sleep => exact guarded.sleep
  | wfi => exact guarded.wfi

/-- Nothing changes for the borrows when an operation keeps them and the guard of the ready
queue stays.
-/
theorem Guarded.kept (guarded : Guarded state) (borrowed : next.borrowed = state.borrowed)
    (he : next.holdsGuard = state.holdsGuard)
    : Guarded next := by
  refine ⟨?_, ?_, ?_⟩
  · rw [borrowed, he]
    exact guarded.ready
  · rw [borrowed]
    exact guarded.sleep
  · rw [borrowed]
    exact guarded.wfi

theorem Guarded.updated (guarded : Guarded state) {guard : Bool}
    (borrowed : next.borrowed = update state.borrowed .ready guard)
    (holds : next.holdsGuard = guard)
    : Guarded next := by
  refine ⟨?_, ?_, ?_⟩
  · simp [borrowed, holds]
  · simp [borrowed, guarded.sleep]
  · simp [borrowed, guarded.wfi]

theorem kept_resume {executor : Executor} (clock : Nat → Instant) (resumption : Resumption)
    : Meets (Kept executor)
        (fun fault => fault = .alreadyBorrowed → ∃ queue, executor.borrowed queue = true)
        (resume fuel clock resumption executor) := by
  cases resumption with
  | wfi => exact (operates_resumeWfiTasks executor).tolerate fun _ => Fails.clash
  | sleeping => exact (operates_resumeSleepingTasks clock executor).tolerate fun _ => Fails.clash
  | pending => exact kept_resumePendingTasks.tolerate fun _ taken he => ⟨_, taken he⟩

/-- A task is being polled. -/
def inPoll (state : Polling) : Bool :=
  match state.place with
  | .running _ => true
  | _ => false

/-- A task in its poll spawns on its own executor, or drops or completes a handle while the
executor would transfer a pending task (the thread executor borrows the ready queue for that
whether or not there is one).
-/
def conflicts (fuel : Nat) (state : Polling) : PollEvent → Bool
  | .op (.spawn _) => state.inPoll
  | .op .dropHandle => state.inPoll && (state.kind == .thread || state.handsOut fuel)
  | _ => false

section

variable (guarded : Guarded state)
include guarded

/-- A poll of the next ready task takes the guard of the interrupt executor; the thread
executor has it already.
-/
theorem Guarded.meets_pollNext (here : state.place = .polling)
    : Meets Guarded (· ≠ .alreadyBorrowed) state.pollNext := by
  have guards
    : Meets (fun executor => executor.borrowed = update state.borrowed .ready true)
        (· ≠ .alreadyBorrowed) state.guardReady := by
    unfold guardReady
    split
    next kind =>
      have ready : state.borrowed .ready = true := by
        simp [guarded.ready, holdsGuard, here, kind]
      exact (update_eq_self_iff.mpr ready.symm).symm
    next kind =>
      refine (meets_borrowMut.mono ?_).tolerate ?_
      · rintro _ ⟨_, rfl⟩
        rfl
      · rintro _ ⟨_, taken⟩
        rw [guarded.free (by simp [holdsGuard, here, kind])] at taken
        cases taken
  refine guards.bind fun executor borrowed => ?_
  rw [← popReady_borrowed] at borrowed
  split
  next task rest popping =>
    rw [popping] at borrowed
    exact guarded.updated borrowed rfl
  next rest popping =>
    rw [popping] at borrowed
    change rest.borrowed = _ at borrowed
    have free : rest.borrowed .sleep = false := by simp [borrowed, guarded.sleep]
    simp only [free, Bool.false_eq_true, if_false]
    split
    · exact guarded.updated borrowed rfl
    · have released : (rest.release .ready).borrowed
          = update state.borrowed .ready false := by
        simp only [Executor.release, borrowed, update_idem]
      exact guarded.updated released rfl

theorem Guarded.meets_advance {clock : Nat → Instant}
    : Meets Guarded (· ≠ .alreadyBorrowed) (state.advance fuel clock) := by
  unfold Polling.advance
  split
  next resumption rest here =>
    refine ((kept_resume clock resumption).tolerate ?_).bind fun executor kept => ?_
    · intro fault taken he
      obtain ⟨queue, taken⟩ := taken he
      rw [guarded.free (by simp [holdsGuard, here])] at taken
      cases taken
    · exact guarded.kept kept.1 (by simp [holdsGuard, here])
  next here =>
    split
    next kind =>
      refine (meets_borrowMut.tolerate ?_).bind ?_
      · rintro _ ⟨_, taken⟩
        rw [guarded.free (by simp [holdsGuard, here])] at taken
        cases taken
      · rintro _ ⟨_, rfl⟩
        exact guarded.updated rfl (by simp [holdsGuard, Executor.borrowing, kind])
    next kind => exact guarded.kept rfl (by simp [holdsGuard, here, kind])
  next here => exact guarded.meets_pollNext here
  next => exact fun he => by cases he

theorem Guarded.meets_wakeTask {task : TaskId}
    : Meets Guarded (· ≠ .alreadyBorrowed) (state.wakeTask fuel task) := by
  refine ((operates_resumeTask fuel task _).tolerate fun _ => Fails.clash).bind ?_
  intro executor kept
  exact guarded.kept kept.1 (by simp only [holdsGuard, kept.2])

/-- A call into the executor panics on a borrow at most when it borrows the ready queue while
a guard of it is alive.
-/
theorem Guarded.meets_perform {op : TaskOp} (inside : state.holdsGuard = state.inPoll)
    : Meets Guarded (fun fault => fault = .alreadyBorrowed → conflicts fuel state (.op op) = true)
        (state.perform fuel op) := by
  have ready := guarded.ready.trans inside
  have kept {executor : Executor} (kept : Kept state.toExecutor executor)
      : Guarded { state with toExecutor := executor } :=
    guarded.kept kept.1 (by simp only [holdsGuard, kept.2])
  unfold Polling.perform
  cases op with
  | spawn task =>
      refine ((operates_spawn task _).tolerate fun _ fails he => ?_).bind fun _ => kept
      exact ready.symm.trans (fails.clash he)
  | sleepUntil deadline =>
      dsimp only
      split
      · refine ((operates_taskSleepUntil _ deadline _).tolerate fun _ fails he => ?_).bind
          fun _ => kept
        cases guarded.sleep.symm.trans (fails.clash he)
      · exact fun he => by cases he
  | waitForInterrupt =>
      dsimp only
      split
      · refine ((operates_taskWaitForInterrupt _ _).tolerate fun _ fails he => ?_).bind
          fun _ => kept
        cases guarded.wfi.symm.trans (fails.clash he)
      · exact fun he => by cases he
  | wake task => exact guarded.meets_wakeTask.tolerate fun _ quiet he => absurd he quiet
  | dropHandle =>
      cases resumed : state.resumePendingTasks fuel true with
      | ok executor => exact kept (kept_resumePendingTasks.of_ok resumed)
      | error fault =>
          rintro rfl
          obtain ⟨taken, given⟩ := resumePendingTasks_error_iff.mp resumed
          simp [conflicts, ← ready, taken, given]

/-- A step keeps the borrows in order and panics on a borrow only in a conflict. -/
theorem Guarded.meets_step
    : Meets Guarded (fun fault => fault = .alreadyBorrowed → conflicts fuel state event = true)
        (state.step fuel event) := by
  cases event with
  | blockOn task =>
      simp only [Polling.step, blockOn]
      split
      next entered =>
        refine ((operates_spawn task _).tolerate fun _ fails he => ?_).bind
          fun executor kept => ?_
        · have taken : state.borrowed .ready = true := fails.clash he
          rw [guarded.free (by simp [holdsGuard, entered.2])] at taken
          cases taken
        · exact guarded.kept kept.1 (by simp [holdsGuard, entered.2])
      next => exact fun he => by cases he
  | poll kind =>
      simp only [Polling.step]
      split
      next entered => exact guarded.kept rfl (by simp [holdsGuard, entered.2])
      next => exact fun he => by cases he
  | advance clock => exact guarded.meets_advance.tolerate fun _ quiet he => absurd he quiet
  | op op =>
      simp only [Polling.step]
      split
      next here => exact guarded.meets_perform (by simp [holdsGuard, inPoll, here])
      next here => exact guarded.meets_perform (by simp [holdsGuard, inPoll, here])
      next => exact fun he => by cases he
  | endPoll finished =>
      simp only [Polling.step, Polling.endPoll]
      split
      next task here kind =>
        split
        · exact guarded.updated rfl rfl
        · exact guarded.kept rfl (by simp [holdsGuard, here, kind])
      next task here kind => exact guarded.updated rfl (by simp [holdsGuard, release, kind])
      next => exact fun he => by cases he
  | wakeup =>
      simp only [Polling.step]
      split
      · exact guarded.updated rfl rfl
      · exact fun he => by cases he
  | wake task => exact guarded.meets_wakeTask.tolerate fun _ quiet he => absurd he quiet

/-- In a conflict the ready queue is borrowed for the poll, so the call panics. -/
theorem Guarded.conflict (conflict : conflicts fuel state event = true)
    : state.step fuel event = .error .alreadyBorrowed := by
  cases event with
  | op op =>
      cases here : state.place with
      | running task =>
          have ready : state.borrowed .ready = true := by simp [guarded.ready, holdsGuard, here]
          simp only [Polling.step, here]
          cases op with
          | spawn task => exact bind_pure_error.mpr (spawn_error_iff.mpr ready)
          | dropHandle =>
              simp only [conflicts, inPoll, here, Bool.true_and, Bool.or_eq_true, beq_iff_eq]
                at conflict
              exact bind_pure_error.mpr (resumePendingTasks_error_iff.mpr ⟨ready, conflict⟩)
          | sleepUntil | waitForInterrupt | wake => cases conflict
      | outside | resuming | polling | waiting =>
          cases op <;> simp [conflicts, inPoll, here] at conflict
  | blockOn | poll | advance | endPoll | wakeup | wake => cases conflict

theorem Guarded.step_error_iff
    : state.step fuel event = .error .alreadyBorrowed ↔ conflicts fuel state event = true :=
  ⟨fun fails => guarded.meets_step.of_error fails rfl, guarded.conflict⟩

end

/-- A call into the executor panics with "already borrowed" exactly when a task, in its poll,
spawns on the executor, or drops or completes a handle while the thread executor runs or the
pending queue hands out a task; no other step does, in any reached state. Witness: the ready
queue is borrowed for the whole poll, and the other queues only inside one operation.
-/
theorem alreadyBorrowed_iff_conflicts (kind : ExecutorKind) (fuel : Nat) (state : Polling)
    (reached : Reaches (step fuel) (fun _ _ => True) (start kind) state) (event : PollEvent)
    : state.step fuel event = .error .alreadyBorrowed ↔ conflicts fuel state event = true := by
  have guarded : Guarded state :=
    reached.invariant Guarded (guarded_start kind) fun _ _ _ guarded _ hs =>
      guarded.meets_step.of_ok hs
  exact guarded.step_error_iff

/-- Task 1 runs on the thread executor, sleeps and wakes task 2. -/
def quietPoll : List PollEvent :=
  [.blockOn 1, .advance fun _ => 0, .advance fun _ => 0, .advance fun _ => 0, .advance fun _ => 0,
    .op (.sleepUntil 9), .op (.wake 2)]

theorem alreadyBorrowed_iff_conflicts_quiet
    : ∃ state, run (step 3) (start .thread) quietPoll = .ok state
        ∧ state.place = .running 1
        ∧ state.step 3 (.op (.wake 3)) ≠ .error .alreadyBorrowed := by
  obtain ⟨state, ran⟩ : ∃ state, run (step 3) (start .thread) quietPoll = .ok state := ⟨_, rfl⟩
  have hrun : state.place = .running 1 :=
    view_of_ok (fun state : Polling => state.place) ran rfl
  have reached : Reaches (step 3) (fun _ _ => True) (start .thread) state :=
    Reaches.here.run (fun _ _ _ => trivial) ran
  refine ⟨state, ran, hrun, fun fails => ?_⟩
  exact Bool.false_ne_true
    ((alreadyBorrowed_iff_conflicts .thread 3 state reached (.op (.wake 3))).mp fails)

/-- A task that spawns in its poll panics, and so does one that drops a handle. -/
theorem spawn_in_poll_panics
    : ∃ state, run (step 3) (start .thread) quietPoll = .ok state
        ∧ state.step 3 (.op (.spawn 4)) = .error .alreadyBorrowed
        ∧ state.step 3 (.op .dropHandle) = .error .alreadyBorrowed :=
  ⟨_, rfl, rfl, rfl⟩

end Scars.Polling
