import Scars.Task.BorrowRuns
import Scars.Task.Waking

/-! What keeps the queues of an executor in order.
If no wake, expired deadline or interrupt finds a task awake already, the executor never finds
a link in use, and a woken task is pending or ready until it is polled.
-/

namespace Scars.Polling

open Runs Executor
open Outcome (Meets)

variable {fuel : Nat} {state next : Polling} {task : TaskId}

/-- The deadline of a sleeping task has expired at one of the clock readings of a transfer. -/
def isDue (clock : Nat → Instant) (state : Polling) (task : TaskId) : Bool :=
  (List.range (state.sleepQueue.length + 1)).any fun round =>
    decide (state.wakeupTime task ≤ clock round)

/-- A wake, an expired deadline, an interrupt or a spawn finds a task that is not awake yet, and
a wake finds its node free; a task goes to sleep or waits for the interrupt with its link free.
-/
def calm (state : Polling) : PollEvent → Bool
  | .wake task => state.nodeFree task && !state.readyQueue.contains task
  | .op (.wake task) => state.nodeFree task && !state.readyQueue.contains task
  | .blockOn task => !state.awake task
  | .op (.spawn task) => !state.awake task
  | .op (.sleepUntil _) =>
      match state.place with
      | .running task => !state.inSleepList task
      | _ => true
  | .op .waitForInterrupt =>
      match state.place with
      | .running task => !state.inSleepList task
      | _ => true
  | .advance clock =>
      match state.place with
      | .resuming (.wfi :: _) => state.wfiQueue.all fun task => !state.awake task
      | .resuming (.sleeping :: _) =>
          state.sleepQueue.all fun task => !state.isDue clock task || !state.awake task
      | _ => true
  | _ => true

/-- The queues are in order, and a woken task is awake. -/
structure Attentive (state : Polling) : Prop extends Waking state.toExecutor where
  woken : ∀ task, state.woken task = true → state.awake task = true

theorem attentive_start (kind : ExecutorKind) : Attentive (start kind) :=
  ⟨waking_new kind, nofun⟩

section

variable (attentive : Attentive state)
include attentive

/-- An operation that forgets no task keeps the woken ones awake. -/
theorem Attentive.resumes {executor : Executor} (resumes : Resumes state.toExecutor executor)
    {place : PollPlace} {blockOnTask : TaskId}
    : Attentive ⟨executor, place, blockOnTask, state.woken⟩ :=
  ⟨resumes.toWaking, fun task woken => resumes.awake task (attentive.woken task woken)⟩

theorem Attentive.meets {outcome : Except Fault Executor}
    (meets : Meets (Resumes state.toExecutor) Fault.Loose outcome) (place : PollPlace)
    (blockOnTask : TaskId)
    : Meets Attentive Fault.Loose
        (outcome >>= fun executor => pure ⟨executor, place, blockOnTask, state.woken⟩) :=
  meets.bind fun _ resumes => attentive.resumes resumes

theorem Attentive.wakeTask (free : state.nodeFree task = true) (notReady : task ∉ state.readyQueue)
    : Meets Attentive Fault.Loose (state.wakeTask (fuel + 1) task) := by
  refine (attentive.toWaking.resumeTask free notReady fuel).bind ?_
  rintro executor ⟨resumes, awake⟩
  refine ⟨resumes.toWaking, fun other woken => ?_⟩
  by_cases he : other = task
  case pos => exact he ▸ awake
  case neg =>
      refine resumes.awake other (attentive.woken other ?_)
      simpa [he] using woken

theorem Attentive.spawn (asleep : state.awake task = false)
    : Meets (Resumes state.toExecutor) Fault.Loose (state.spawn task) := by
  refine (attentive.toWaking.spawn asleep).mono ?_
  rintro _ rfl
  exact (attentive.toWaking.pushReady asleep).2

theorem Attentive.pop {rest : List TaskId} (here : state.readyQueue = task :: rest)
    (borrowed : ExecutorQueue → Bool)
    : Attentive { state with
        readyQueue := rest, borrowed, place := .running task
        woken := Function.update state.woken task false } := by
  have distinct := attentive.ready
  rw [here, List.nodup_cons] at distinct
  refine ⟨⟨attentive.intact, distinct.2, fun other linked hm => ?_, attentive.sleep,
    attentive.wfi, attentive.links⟩, fun other woken => ?_⟩
  · exact attentive.apart other linked (by simp [here, hm])
  · have hne : other ≠ task := by
      rintro rfl
      simp at woken
    have awake := awake_iff.mp (attentive.woken other (by simpa [hne] using woken))
    rw [here] at awake
    refine awake_iff.mpr (awake.imp_right fun hm => ?_)
    exact (List.mem_cons.mp hm).resolve_left hne

theorem Attentive.pollNext
    : Meets Attentive Fault.Loose state.pollNext := by
  have taken : Meets (fun executor => ∃ borrowed, executor = { state.toExecutor with borrowed })
      Fault.Loose state.guardReady := by
    unfold guardReady
    split
    · exact ⟨state.borrowed, rfl⟩
    · unfold borrowMut
      split
      · exact .inl rfl
      · exact ⟨_, rfl⟩
  refine taken.bind ?_
  rintro _ ⟨borrowed, rfl⟩
  cases here : state.readyQueue with
  | nil =>
      have popped : { state.toExecutor with borrowed }.popReady
          = (none, { state.toExecutor with borrowed }) := by
        simp [popReady, here]
      rw [popped]
      dsimp only
      split
      · exact .inl rfl
      · split
        · exact attentive.resumes ((Resumes.refl attentive.toWaking).borrow _)
        · exact attentive.resumes ((Resumes.refl attentive.toWaking).borrow _)
  | cons task rest =>
      have popped : { state.toExecutor with borrowed }.popReady
          = (some task, { state.toExecutor with readyQueue := rest, borrowed }) := by
        simp [popReady, here]
      rw [popped]
      exact attentive.pop here borrowed

theorem Attentive.advance {clock : Nat → Instant} (quiet : calm state (.advance clock) = true)
    : Meets Attentive Fault.Loose (state.advance (fuel + 1) clock) := by
  unfold Polling.advance
  simp only [calm] at quiet
  split
  next resumption rest here =>
    refine attentive.meets ?_ _ _
    rw [here] at quiet
    cases resumption with
    | wfi =>
        refine attentive.toWaking.resumeWfiTasks fun task hm => ?_
        simpa using List.all_eq_true.mp quiet task hm
    | sleeping =>
        refine attentive.toWaking.resumeSleepingTasks ?_
        rintro task hm ⟨round, before, due⟩
        have calmly := List.all_eq_true.mp quiet task hm
        have isDue : state.isDue clock task = true := by
          simp only [Polling.isDue, List.any_eq_true, List.mem_range, decide_eq_true_eq]
          exact ⟨round, Nat.lt_succ_of_le before, due⟩
        simpa [isDue] using calmly
    | pending => exact attentive.toWaking.resumePendingTasks fuel false
  next here =>
    split
    · refine attentive.meets ?_ _ _
      unfold borrowMut
      split
      · exact .inl rfl
      · exact (Resumes.refl attentive.toWaking).borrow _
    · exact attentive.resumes (Resumes.refl attentive.toWaking)
  next => exact attentive.pollNext
  next => exact .inr (.inr rfl)

theorem Attentive.perform {op : TaskOp} (quiet : calm state (.op op) = true)
    : Meets Attentive Fault.Loose (state.perform (fuel + 1) op) := by
  unfold Polling.perform
  cases op with
  | spawn task => exact attentive.meets (attentive.spawn (by simpa [calm] using quiet)) _ _
  | sleepUntil deadline =>
      simp only [calm] at quiet
      dsimp only
      split
      next task here =>
        simp only [here] at quiet
        exact attentive.meets (attentive.toWaking.taskSleepUntil (by simpa using quiet)) _ _
      next => exact .inr (.inr rfl)
  | waitForInterrupt =>
      simp only [calm] at quiet
      dsimp only
      split
      next task here =>
        simp only [here] at quiet
        exact attentive.meets (attentive.toWaking.taskWaitForInterrupt (by simpa using quiet)) _ _
      next => exact .inr (.inr rfl)
  | wake task =>
      obtain ⟨free, notReady⟩ : state.nodeFree task = true ∧ task ∉ state.readyQueue := by
        simpa [calm] using quiet
      exact attentive.wakeTask free notReady
  | dropHandle => exact attentive.meets (attentive.toWaking.resumePendingTasks fuel true) _ _

/-- A calm step keeps the queues in order and raises neither fault of a link in use. -/
theorem Attentive.step {event : PollEvent} (quiet : calm state event = true)
    : Meets Attentive Fault.Loose (state.step (fuel + 1) event) := by
  cases event with
  | blockOn task =>
      simp only [Polling.step, blockOn]
      split
      · exact attentive.meets (attentive.spawn (by simpa [calm] using quiet)) _ _
      · exact .inr (.inr rfl)
  | poll kind =>
      simp only [Polling.step]
      split
      · exact attentive.resumes (Resumes.refl attentive.toWaking)
      · exact .inr (.inr rfl)
  | advance clock => exact attentive.advance quiet
  | op op =>
      simp only [Polling.step]
      split
      · exact attentive.perform quiet
      · exact attentive.perform quiet
      · exact .inr (.inr rfl)
  | endPoll finished =>
      simp only [Polling.step, endPoll]
      split
      · split
        · exact attentive.resumes ((Resumes.refl attentive.toWaking).borrow _)
        · exact attentive.resumes (Resumes.refl attentive.toWaking)
      · exact attentive.resumes ((Resumes.refl attentive.toWaking).borrow _)
      · exact .inr (.inr rfl)
  | wakeup =>
      simp only [Polling.step]
      split
      · exact attentive.resumes ((Resumes.refl attentive.toWaking).borrow _)
      · exact .inr (.inr rfl)
  | wake task =>
      obtain ⟨free, notReady⟩ : state.nodeFree task = true ∧ task ∉ state.readyQueue := by
        simpa [calm] using quiet
      exact attentive.wakeTask free notReady

end

end Scars.Polling
