import Scars.Task.ExecutorFaults
import Scars.Task.SlotLinks
import Scars.Task.WakeRuns

/-! Thread executors whose queues hold only tasks of an allowed kind.
What a calm step polls is allowed too, and it faults only where the program has no such call or
a transfer has more tasks to move than its bound.
-/

namespace Scars

open Runs
open Outcome (Meets)

open Executor

/-- The task that an event puts into a queue. -/
def PollEvent.readies : PollEvent → Option TaskId
  | .blockOn task => some task
  | .op (.spawn task) => some task
  | .op (.wake task) => some task
  | .wake task => some task
  | _ => none

namespace Polling

variable {fuel : Nat} {state next : Polling} {ha more : TaskId → Prop} {task : TaskId}
  {event : PollEvent}

/-- The thread executor queues, polls and blocks on allowed tasks only, and waits with no task
left to poll.
-/
structure Populated (allowed : TaskId → Prop) (state : Polling) : Prop where
  thread : state.kind = .thread
  within : state.toExecutor.Within allowed
  polled : ∀ task, state.place = .running task → allowed task
  blocking : state.place ≠ .outside → allowed state.blockOnTask
  waiting : state.place = .waiting → state.readyQueue = []

section

variable (populated : Populated ha state)
include populated

theorem Populated.pollNext (here : state.place = .polling) (polled : state.pollNext = .ok next)
    : Populated ha next := by
  have blocking := populated.blocking (by simp [here])
  unfold Polling.pollNext guardReady at polled
  simp only [populated.thread] at polled
  obtain ⟨executor, he, rest⟩ := bind_ok.mp polled
  cases he
  cases ready : state.readyQueue with
  | nil =>
      simp only [popReady, ready] at rest
      split at rest
      · cases rest
      · cases rest
        exact ⟨populated.thread, populated.within, by simp, fun _ => blocking, fun _ => ready⟩
  | cons task others =>
      have popped : state.popReady
          = (some task, { state.toExecutor with readyQueue := others }) := by
        simp only [popReady, ready]
      obtain ⟨fits, within⟩ := populated.within.popReady popped
      rw [popped] at rest
      cases rest
      refine ⟨populated.thread, within, fun other hrun => ?_, fun _ => blocking, by simp⟩
      cases hrun
      exact fits

theorem Populated.advance {clock : Nat → Instant} (advanced : state.advance fuel clock = .ok next)
    : Populated ha next := by
  unfold Polling.advance at advanced
  split at advanced
  next resumption rest here =>
    have blocking := populated.blocking (by simp [here])
    obtain ⟨executor, resumed, he⟩ := bind_ok.mp advanced
    cases he
    have kind := ((kept_resume clock resumption).of_ok resumed).2
    have within := (keepsWithin_resume fuel clock resumption _ populated.within).of_ok resumed
    exact ⟨kind.trans populated.thread, within, nofun, fun _ => blocking, nofun⟩
  next here =>
    have blocking := populated.blocking (by simp [here])
    simp only [populated.thread] at advanced
    obtain ⟨executor, borrows, he⟩ := bind_ok.mp advanced
    obtain ⟨_, rfl⟩ := borrowMut_ok borrows
    cases he
    exact ⟨populated.thread, populated.within.borrow _, nofun, fun _ => blocking, nofun⟩
  next here => exact populated.pollNext here advanced
  next => cases advanced

/-- An operation of the executor's own context, which neither transfers nor waits. -/
theorem Populated.operate {executor : Executor} (kind : executor.kind = state.kind)
    (within : executor.Within ha) (idle : state.place ≠ .waiting)
    : Populated ha { state with toExecutor := executor } :=
  ⟨kind.trans populated.thread, within, populated.polled, populated.blocking,
    fun waiting => absurd waiting idle⟩

theorem Populated.wakeTask {task : TaskId} (fits : ha task) (free : state.nodeFree task = true)
    (woke : state.wakeTask fuel task = .ok next)
    : Populated ha next := by
  obtain ⟨unlinked, notHead⟩
    : state.pendingReadyQueue.isLinked task = false
      ∧ state.pendingReadyQueue.loadHead () ≠ .item task := by
    simpa [nodeFree] using free
  obtain ⟨executor, resumed, he⟩ := bind_ok.mp woke
  have within := (keepsWithin_resumeTask fits populated.within unlinked notHead).of_ok resumed
  obtain ⟨memory, pushed, rfl⟩ := resumeTask_ok resumed
  cases he
  exact ⟨populated.thread, within, populated.polled, populated.blocking, populated.waiting⟩

theorem Populated.perform {op : TaskOp} (quiet : calm state (.op op) = true)
    (fits : ∀ task, PollEvent.readies (.op op) = some task → ha task)
    (idle : state.place ≠ .waiting) (hp : state.perform fuel op = .ok next)
    : Populated ha next := by
  unfold Polling.perform at hp
  cases op with
  | spawn task =>
      obtain ⟨executor, spawned, he⟩ := bind_ok.mp hp
      cases he
      refine populated.operate ((operates_spawn task).keepsBorrows _ _ spawned).2 ?_ idle
      exact (keepsWithin_spawn (fits task rfl) _ populated.within).of_ok spawned
  | sleepUntil deadline =>
      dsimp only at hp
      split at hp
      next task here =>
        obtain ⟨executor, slept, he⟩ := bind_ok.mp hp
        cases he
        have kind := ((operates_taskSleepUntil task deadline).keepsBorrows _ _ slept).2
        refine populated.operate kind ?_ idle
        have hrun := populated.polled task here
        exact (keepsWithin_taskSleepUntil hrun deadline _ populated.within).of_ok slept
      next => cases hp
  | waitForInterrupt =>
      dsimp only at hp
      split at hp
      next task here =>
        obtain ⟨executor, waits, he⟩ := bind_ok.mp hp
        cases he
        have kind := ((operates_taskWaitForInterrupt task).keepsBorrows _ _ waits).2
        refine populated.operate kind ?_ idle
        have hrun := populated.polled task here
        exact (keepsWithin_taskWaitForInterrupt hrun _ populated.within).of_ok waits
      next => cases hp
  | wake task =>
      obtain ⟨free, _⟩ : state.nodeFree task = true ∧ task ∉ state.readyQueue := by
        simpa [calm] using quiet
      exact populated.wakeTask (fits task rfl) free hp
  | dropHandle =>
      obtain ⟨executor, resumed, he⟩ := bind_ok.mp hp
      cases he
      refine populated.operate (kept_resumePendingTasks.of_ok resumed).2 ?_ idle
      exact (keepsWithin_resumePendingTasks fuel true _ populated.within).of_ok resumed

theorem Populated.step (quiet : calm state event = true)
    (fits : ∀ task, event.readies = some task → ha task) (hs : state.step fuel event = .ok next)
    : Populated ha next := by
  cases event with
  | blockOn task =>
      obtain ⟨_, entered⟩ := checked_ok.mp hs
      obtain ⟨executor, spawned, he⟩ := bind_ok.mp entered
      cases he
      have kind := ((operates_spawn task).keepsBorrows _ _ spawned).2
      have within := (keepsWithin_spawn (fits task rfl) _ populated.within).of_ok spawned
      exact ⟨kind.trans populated.thread, within, by simp, fun _ => fits task rfl, by simp⟩
  | poll kind =>
      obtain ⟨⟨interrupt, _⟩, _⟩ := checked_ok.mp hs
      rw [populated.thread] at interrupt
      cases interrupt
  | advance clock => exact populated.advance hs
  | op op =>
      simp only [Polling.step] at hs
      split at hs
      next here => exact populated.perform quiet fits (by simp [here]) hs
      next here => exact populated.perform quiet fits (by simp [here]) hs
      next => cases hs
  | endPoll finished =>
      simp only [Polling.step, Polling.endPoll] at hs
      split at hs
      next task here _ =>
        have blocking := populated.blocking (by simp [here])
        split at hs
        · cases hs
          exact ⟨populated.thread, populated.within.borrow _, by simp, fun _ => blocking, by simp⟩
        · cases hs
          exact ⟨populated.thread, populated.within, by simp, fun _ => blocking, by simp⟩
      next interrupt =>
        rw [populated.thread] at interrupt
        cases interrupt
      next => cases hs
  | wakeup =>
      simp only [Polling.step] at hs
      split at hs
      next here =>
        have blocking := populated.blocking (by simp [here])
        cases hs
        exact ⟨populated.thread, populated.within.borrow _, by simp, fun _ => blocking, by simp⟩
      next => cases hs
  | wake task =>
      obtain ⟨free, _⟩ : state.nodeFree task = true ∧ task ∉ state.readyQueue := by
        simpa [calm] using quiet
      exact populated.wakeTask (fits task rfl) free hs

end

/-- What every calm step keeps that readies only allowed tasks. -/
structure Steady (allowed : TaskId → Prop) (state : Polling) : Prop extends
    Populated allowed state where
  attentive : Attentive state
  guarded : Guarded state

theorem steady_start : Steady ha (start .thread) where
  thread := rfl
  within := within_new .thread
  polled := nofun
  blocking outside := absurd rfl outside
  waiting := nofun
  attentive := attentive_start .thread
  guarded := guarded_start .thread

theorem Steady.step (steady : Steady ha state) (event : PollEvent) (quiet : calm state event = true)
    (fits : ∀ task, event.readies = some task → ha task)
    (hs : state.step (fuel + 1) event = .ok next)
    : Steady ha next where
  toPopulated := steady.toPopulated.step quiet fits hs
  attentive := (steady.attentive.step quiet).of_ok hs
  guarded := steady.guarded.meets_step.of_ok hs

/-- The faults of a step: panics of the queues, and calls that the program does not have. -/
def Raised (fault : Fault) : Prop := fault.OfQueue ∨ fault = .notCallable

theorem meets_pure {outcome : Except Fault Executor} {next : Executor → Polling}
    (meets : Meets (fun _ => True) Fault.OfQueue outcome)
    : Meets (fun _ => True) Raised (outcome >>= fun executor => pure (next executor)) := by
  cases outcome with
  | ok executor => exact True.intro
  | error fault => exact .inl meets

theorem raises_pollNext : Meets (fun _ => True) Raised state.pollNext := by
  have guards : Meets (fun _ => True) Raised state.guardReady := by
    unfold guardReady
    split
    · exact True.intro
    · cases borrows : state.borrowMut .ready with
      | ok executor => exact True.intro
      | error fault => exact .inl ((raises_borrowMut .ready _).of_error borrows)
  refine guards.bind fun executor _ => ?_
  split
  · exact True.intro
  · split
    · exact .inl (.inl rfl)
    · split
      · exact True.intro
      · exact True.intro

section Bounded

variable {fifos : Fifos Unit TaskId} (hr : Represents state.pendingReadyQueue fifos)
  (few : (fifos.items ()).length ≤ fuel)

include hr few

theorem raises_advance (clock : Nat → Instant)
    : Meets (fun _ => True) Raised (state.advance (fuel + 1) clock) := by
  unfold Polling.advance
  split
  · exact meets_pure (meets_resume hr few clock _)
  · split
    · exact meets_pure (raises_borrowMut .ready _)
    · exact True.intro
  · exact raises_pollNext
  · exact .inr rfl

theorem raises_perform (op : TaskOp)
    : Meets (fun _ => True) Raised (state.perform (fuel + 1) op) := by
  unfold Polling.perform
  cases op with
  | spawn task => exact meets_pure ((operates_spawn task).raises _)
  | sleepUntil deadline =>
      dsimp only
      split
      · exact meets_pure ((operates_taskSleepUntil _ deadline).raises _)
      · exact .inr rfl
  | waitForInterrupt =>
      dsimp only
      split
      · exact meets_pure ((operates_taskWaitForInterrupt _).raises _)
      · exact .inr rfl
  | wake task => exact meets_pure ((operates_resumeTask _ task).raises _)
  | dropHandle => exact meets_pure (meets_resumePendingTasks hr few true)

/-- With no more pending tasks than the bound of a transfer, a step raises no other fault. -/
theorem raises_step (event : PollEvent)
    : Meets (fun _ => True) Raised (state.step (fuel + 1) event) := by
  cases event with
  | blockOn task =>
      simp only [Polling.step, blockOn]
      split
      · exact meets_pure ((operates_spawn task).raises _)
      · exact .inr rfl
  | poll kind =>
      simp only [Polling.step]
      split
      · exact True.intro
      · exact .inr rfl
  | advance clock => exact raises_advance hr few clock
  | op op =>
      simp only [Polling.step]
      split
      · exact raises_perform hr few op
      · exact raises_perform hr few op
      · exact .inr rfl
  | endPoll finished =>
      simp only [Polling.step, Polling.endPoll]
      split
      · split
        · exact True.intro
        · exact True.intro
      · exact True.intro
      · exact .inr rfl
  | wakeup =>
      simp only [Polling.step]
      split
      · exact True.intro
      · exact .inr rfl
  | wake task => exact meets_pure ((operates_resumeTask _ task).raises _)

/-- A calm step without a conflict of borrows does not panic. -/
theorem Steady.step_error (steady : Steady ha state) {fault : Fault}
    (quiet : calm state event = true) (apart : conflicts (fuel + 1) state event = false)
    (fails : state.step (fuel + 1) event = .error fault)
    : fault = .notCallable := by
  have raised := (raises_step hr few event).of_error fails
  have loose : fault.Loose := (steady.attentive.step quiet).of_error fails
  rcases loose with rfl | rfl | rfl
  · rw [steady.guarded.step_error_iff, apart] at fails
    cases fails
  · simp [Raised, Fault.OfQueue] at raised
  · rfl

end Bounded

/-- The allowed tasks may change, except those that are queued, polled or blocked on. -/
theorem Steady.mono (steady : Steady ha state)
    (kept
      : ∀ task,
          state.awake task = true ∨ state.inSleepList task = true
            ∨ state.place = .running task
            ∨ (state.place ≠ .outside ∧ state.blockOnTask = task)
          → ha task
          → more task)
    : Steady more state where
  thread := steady.thread
  within := by
    refine steady.within.mono fun task here => kept task ?_
    rcases here with linked | ready | sleep | wfi
    · exact .inl (awake_iff.mpr (.inl linked))
    · exact .inl (awake_iff.mpr (.inr ready))
    · exact .inr (.inl (by simp [inSleepList, sleep]))
    · exact .inr (.inl (by simp [inSleepList, wfi]))
  polled task hrun := kept task (.inr (.inr (.inl hrun))) (steady.polled task hrun)
  blocking inside := kept _ (.inr (.inr (.inr ⟨inside, rfl⟩))) (steady.blocking inside)
  waiting := steady.waiting
  attentive := steady.attentive
  guarded := steady.guarded

theorem Steady.allowed_of_linked (steady : Steady ha state)
    (linked : state.awake task = true ∨ state.inSleepList task = true)
    : ha task := by
  rcases linked with awake | sleeping
  · exact (awake_iff.mp awake).elim (steady.within.pending task) (steady.within.ready task)
  · have hm : task ∈ state.sleepQueue ∨ task ∈ state.wfiQueue := by
      simpa [inSleepList] using sleeping
    exact hm.elim (steady.within.sleep task) (steady.within.wfi task)

theorem Steady.noteWoken (steady : Steady ha state) (awake : state.awake task = true)
    : Steady ha { state with woken := Function.update state.woken task true } where
  thread := steady.thread
  within := steady.within
  polled := steady.polled
  blocking := steady.blocking
  waiting := steady.waiting
  attentive := by
    refine ⟨steady.attentive.toWaking, fun other woken => ?_⟩
    by_cases he : other = task
    case pos => exact he ▸ awake
    case neg => exact steady.attentive.woken other (by simpa [he] using woken)
  guarded := steady.guarded.kept rfl rfl

theorem awake_resetNode {executor : Executor}
    (free : executor.pendingReadyQueue.isLinked task = false) (other : TaskId)
    : (Slots.resetNode task executor).awake other = executor.awake other := by
  simp only [awake, Slots.resetNode, QueueMemory.resetNode_isLinked free]

/-- The control block of a task with no link in use may be written over. -/
theorem Steady.resetNode (steady : Steady ha state)
    (free : state.pendingReadyQueue.isLinked task = false)
    (bare
      : state.pendingReadyQueue.loadHead () = .item task
        → (state.pendingReadyQueue.isEmpty ()).1 = true)
    : Steady ha { state with toExecutor := Slots.resetNode task state.toExecutor } := by
  have waking := steady.attentive.toWaking
  have intact : (state.pendingReadyQueue.resetNode task).Intact := waking.intact.resetNode free bare
  have linked := QueueMemory.resetNode_isLinked free
  have within := steady.within
  refine ⟨⟨steady.thread, ⟨intact, fun other pending => ?_, within.ready, within.sleep, within.wfi⟩,
    steady.polled, steady.blocking, steady.waiting⟩, ⟨⟨intact, waking.ready,
    fun other pending => ?_, waking.sleep, waking.wfi, waking.links⟩, fun other woken => ?_⟩,
    steady.guarded.kept rfl rfl⟩
  · exact within.pending other ((linked other).symm.trans pending)
  · exact waking.apart other ((linked other).symm.trans pending)
  · exact (awake_resetNode free other).trans (steady.attentive.woken other woken)

theorem awake_of_spawn {next : Polling} (spawned : state.step fuel (.op (.spawn task)) = .ok next)
    : next.awake task = true := by
  simp only [Polling.step, Polling.perform] at spawned
  have pushed : ∃ executor, state.spawn task = .ok executor
      ∧ next = { state with toExecutor := executor } := by
    split at spawned
    · obtain ⟨executor, pushed, he⟩ := bind_ok.mp spawned
      exact ⟨executor, pushed, (Except.ok.inj he).symm⟩
    · obtain ⟨executor, pushed, he⟩ := bind_ok.mp spawned
      exact ⟨executor, pushed, (Except.ok.inj he).symm⟩
    · cases spawned
  obtain ⟨executor, pushed, rfl⟩ := pushed
  rw [spawn_ok pushed]
  exact awake_iff.mpr (.inr (by simp))

theorem endPoll_eq (thread : state.kind = .thread) (here : state.place = .running task)
    (finished : Bool)
    : state.step fuel (.endPoll finished)
      = .ok (if finished ∧ task = state.blockOnTask then
          { state with toExecutor := state.release .ready, place := .outside }
        else
          { state with place := .polling }) := by
  simp only [Polling.step, Polling.endPoll, here, thread]
  split <;> rfl

end Polling

end Scars
