import Scars.Foundation.Outcome
import Scars.Task.Polling

/-! When a task may call into its own executor.
The ready queue is borrowed for the whole poll of a task, the other queues only inside one
function of the executor. Which call then panics follows from what it borrows.
-/

namespace Scars

open Runs
open Outcome (Meets)

namespace Executor

variable {executor executor' last : Executor} {queue : ExecutorQueue}

/-- An operation that succeeds leaves the borrows and the kind of the executor as they were. -/
def KeepsBorrows (operation : Executor → Except Fault Executor) : Prop :=
  ∀ executor executor', operation executor = .ok executor'
    → executor'.borrowed = executor.borrowed ∧ executor'.kind = executor.kind

/-- The executor while a guard of a queue is alive. -/
def borrowing (queue : ExecutorQueue) (executor : Executor) : Executor :=
  { executor with borrowed := Function.update executor.borrowed queue true }

/-- The executor and what is left of it have the same borrows and the same kind. -/
def Kept (executor executor' : Executor) : Prop :=
  executor'.borrowed = executor.borrowed ∧ executor'.kind = executor.kind

/-- A queue is borrowed, if there is a clash, or a link is in use. -/
def Fails (clash : Prop) (fault : Fault) : Prop :=
  fault = .alreadyBorrowed ∧ clash ∨ fault = .alreadyInList ∨ ∃ error, fault = .queue error

/-- The operation keeps the borrows, and finds a queue borrowed only if there is a clash. -/
def Operates (clashes : Executor → Prop) (operation : Executor → Except Fault Executor) : Prop :=
  ∀ executor, Meets (Kept executor) (Fails (clashes executor)) (operation executor)

/-- A push of a resumed task finds the ready queue borrowed: the interrupt executor borrows it
for each push.
-/
def Contends (executor : Executor) : Prop :=
  executor.kind = .interrupt ∧ executor.borrowed .ready = true

theorem meets_borrowMut
    : Meets (fun inner => executor.borrowed queue = false ∧ inner = executor.borrowing queue)
        (fun fault => fault = .alreadyBorrowed ∧ executor.borrowed queue = true)
        (executor.borrowMut queue) := by
  unfold borrowMut
  split
  next taken => exact ⟨rfl, taken⟩
  next free => exact ⟨eq_false_of_ne_true free, rfl⟩

theorem borrowMut_ok (borrows : executor.borrowMut queue = .ok executor')
    : executor.borrowed queue = false ∧ executor' = executor.borrowing queue :=
  meets_borrowMut.of_ok borrows

theorem Kept.trans (kept : Kept executor executor') (later : Kept executor' last)
    : Kept executor last :=
  ⟨later.1.trans kept.1, later.2.trans kept.2⟩

theorem Kept.contends (kept : Kept executor executor') (contends : executor'.Contends)
    : executor.Contends :=
  ⟨kept.2 ▸ contends.1, kept.1 ▸ contends.2⟩

/-- A guard that is dropped leaves the borrows as before: what it borrowed was free. -/
theorem Kept.release (free : executor.borrowed queue = false)
    (kept : Kept (executor.borrowing queue) last)
    : Kept executor (last.release queue) := by
  refine ⟨?_, kept.2⟩
  simp only [Executor.release, kept.1, borrowing, Function.update_idem]
  rw [← free, Function.update_eq_self]

theorem Fails.clash {clash : Prop} {fault : Fault} (fails : Fails clash fault)
    (he : fault = .alreadyBorrowed)
    : clash := by
  subst he
  rcases fails with ⟨_, clash⟩ | other | ⟨_, other⟩
  · exact clash
  · cases other
  · cases other

section Operates

variable {clashes more : Executor → Prop} {operation body : Executor → Except Fault Executor}

theorem Operates.keepsBorrows (operates : Operates clashes operation) : KeepsBorrows operation :=
  fun executor _ hp => (operates executor).of_ok hp

theorem Operates.mono (operates : Operates clashes operation)
    (implies : ∀ executor, clashes executor → more executor)
    : Operates more operation :=
  fun executor =>
    (operates executor).tolerate fun _ => Or.imp_left (And.imp_right (implies executor))

theorem operates_withBorrow (operates : Operates clashes body)
    : Operates
        (fun executor => executor.borrowed queue = true ∨ clashes (executor.borrowing queue))
        (withBorrow queue body) := by
  intro executor
  refine (meets_borrowMut.tolerate ?_).bind ?_
  · rintro fault ⟨rfl, taken⟩
    exact .inl ⟨rfl, .inl taken⟩
  · rintro inner ⟨free, rfl⟩
    refine ((operates _).tolerate ?_).bind fun last kept => kept.release free
    exact fun _ => Or.imp_left (And.imp_right .inr)

theorem operates_guarded (operates : Operates (fun _ => False) body)
    : Operates (fun executor => executor.borrowed queue = true) (withBorrow queue body) :=
  (operates_withBorrow operates).mono fun _ clash => clash.resolve_right id

/-- It fails on a borrow exactly when its own borrow does, if the body does not. -/
theorem withBorrow_error_iff (operates : Operates (fun _ => False) body)
    : withBorrow queue body executor = .error .alreadyBorrowed
      ↔ executor.borrowed queue = true := by
  refine ⟨fun fails => ((operates_guarded operates executor).of_error fails).clash rfl, ?_⟩
  intro taken
  simp [withBorrow, borrowMut, taken, bind, Except.bind]

/-- A link that is in use is refused, and nothing is borrowed for it. -/
theorem operates_link {used : Executor → Bool} {link : Executor → Executor}
    (kept : ∀ executor, Kept executor (link executor))
    : Operates (fun _ => False) fun executor =>
        if used executor then .error .alreadyInList else .ok (link executor) := by
  intro executor
  dsimp only
  split
  · exact .inr (.inl rfl)
  · exact kept executor

end Operates

variable {task : TaskId} {fuel : Nat}

theorem pushReady_ok (pushed : executor.pushReady task = .ok executor')
    : task ∉ executor.readyQueue
      ∧ executor' = { executor with readyQueue := executor.readyQueue ++ [task] } := by
  obtain ⟨free, he⟩ := refused_ok.mp pushed
  exact ⟨by simpa using free, (Except.ok.inj he).symm⟩

theorem operates_pushReady (task : TaskId) : Operates (fun _ => False) (pushReady task) :=
  operates_link fun _ => ⟨rfl, rfl⟩

theorem operates_spawn (task : TaskId)
    : Operates (fun executor => executor.borrowed .ready = true) (spawn task) :=
  operates_guarded (operates_pushReady task)

theorem spawn_error_iff
    : executor.spawn task = .error .alreadyBorrowed ↔ executor.borrowed .ready = true :=
  withBorrow_error_iff (operates_pushReady task)

theorem operates_insertSleep (task : TaskId) (deadline : Instant)
    : Operates (fun _ => False) (insertSleep task deadline) :=
  operates_link fun _ => ⟨rfl, rfl⟩

theorem operates_taskSleepUntil (task : TaskId) (deadline : Instant)
    : Operates (fun executor => executor.borrowed .sleep = true) (taskSleepUntil task deadline) :=
  fun executor =>
    operates_guarded (operates_insertSleep task deadline) (executor.setWakeupTime task deadline)

theorem operates_taskWaitForInterrupt (task : TaskId)
    : Operates (fun executor => executor.borrowed .wfi = true) (taskWaitForInterrupt task) :=
  operates_guarded (operates_link fun _ => ⟨rfl, rfl⟩)

theorem popReady_borrowed (executor : Executor)
    : executor.popReady.2.borrowed = executor.borrowed := by
  unfold popReady
  split <;> rfl

theorem resumeTask_ok (resumed : executor.resumeTask fuel task = .ok executor')
    : ∃ pendingReadyQueue,
        executor.pendingReadyQueue.pushBack fuel () task = .ok pendingReadyQueue
        ∧ executor' = { executor with pendingReadyQueue, notified := true } := by
  unfold resumeTask at resumed
  split at resumed
  next => cases resumed
  next memory pushed => exact ⟨memory, pushed, (Except.ok.inj resumed).symm⟩

theorem operates_resumeTask (fuel : Nat) (task : TaskId)
    : Operates (fun _ => False) (resumeTask fuel task) := by
  intro executor
  unfold resumeTask
  split
  next error _ => exact .inr (.inr ⟨error, rfl⟩)
  next => exact ⟨rfl, rfl⟩

theorem operates_pushResumed (task : TaskId) : Operates Contends (pushResumed task) := by
  intro executor
  unfold pushResumed
  split
  next => exact (operates_pushReady task).mono (fun _ => False.elim) executor
  next kind =>
    refine (operates_spawn task executor).tolerate fun _ => Or.imp_left (And.imp_right ?_)
    exact fun taken => ⟨kind, taken⟩

/-- The transfer of the pending tasks keeps the borrows, by induction on its rounds. -/
theorem kept_resumePendingLoop {fuel rounds : Nat}
    : Meets (fun outcome => Kept executor outcome.2)
        (fun fault => fault = .alreadyBorrowed → executor.Contends)
        (executor.resumePendingLoop fuel rounds) := by
  induction rounds generalizing executor with
  | zero => exact fun he => by cases he
  | succ rounds ih =>
      unfold resumePendingLoop
      split
      · exact fun he => by cases he
      · exact ⟨rfl, rfl⟩
      next task memory _ =>
        refine ((operates_pushResumed task _).tolerate fun _ => Fails.clash).bind ?_
        intro middle kept
        refine (ih.tolerate fun _ clash he => ?_).bind fun outcome later => kept.trans later
        exact kept.contends (clash he)

/-- The pending queue hands out a task. -/
def handsOut (fuel : Nat) (executor : Executor) : Bool :=
  match executor.pendingReadyQueue.popFront fuel () with
  | .ok (some _, _) => true
  | _ => false

theorem kept_resumePendingTasks {notify : Bool}
    : Meets (Kept executor)
        (fun fault => fault = .alreadyBorrowed → executor.borrowed .ready = true)
        (executor.resumePendingTasks fuel notify) := by
  unfold resumePendingTasks
  split
  next kind =>
    refine (meets_borrowMut.tolerate ?_).bind ?_
    · exact fun _ taken _ => taken.2
    · rintro inner ⟨free, rfl⟩
      refine (kept_resumePendingLoop.tolerate fun _ clash he => ?_).bind fun outcome kept => ?_
      · cases kind.symm.trans (clash he).1
      · exact Kept.release free kept
  next =>
    refine (kept_resumePendingLoop.tolerate fun _ clash he => ?_).bind fun outcome kept => kept
    exact (clash he).2

/-- The transfer of the pending tasks panics while the ready queue is borrowed: always in the
thread executor, and in the interrupt executor if there is a task to transfer. Witness: the
thread executor borrows before it looks, the interrupt executor for each task.
-/
theorem resumePendingTasks_error_iff {notify : Bool}
    : executor.resumePendingTasks fuel notify = .error .alreadyBorrowed
      ↔ executor.borrowed .ready = true
        ∧ (executor.kind = .thread ∨ executor.handsOut fuel = true) := by
  constructor
  · intro fails
    refine ⟨kept_resumePendingTasks.of_error fails rfl, ?_⟩
    unfold resumePendingTasks at fails
    split at fails
    next kind => exact .inl kind
    next =>
      refine .inr ?_
      rcases bind_error.mp fails with looping | ⟨_, _, ended⟩
      · cases fuel with
        | zero => cases looping
        | succ rounds =>
            unfold resumePendingLoop at looping
            unfold handsOut
            split at looping
            · cases looping
            · cases looping
            next task memory popped => rw [popped]
      · cases ended
  · rintro ⟨taken, given⟩
    unfold resumePendingTasks
    split
    next => simp [borrowMut, taken, bind, Except.bind]
    next kind =>
      rcases given with thread | given
      · cases kind.symm.trans thread
      · cases fuel with
        | zero => simp [handsOut, QueueMemory.popFront, QueueMemory.popLoop] at given
        | succ rounds =>
            unfold handsOut at given
            unfold resumePendingLoop
            split at given
            next task memory popped =>
              rw [popped]
              have fails : { executor with pendingReadyQueue := memory }.pushResumed task
                  = .error .alreadyBorrowed := by
                rw [pushResumed, kind]
                exact spawn_error_iff.mpr taken
              simp [fails, bind, Except.bind]
            next => cases given

/-- The transfer of the sleeping tasks keeps the borrows, by induction on its rounds. -/
theorem operates_resumeSleepingLoop (clock : Nat → Instant) (rounds : Nat)
    : Operates Contends (resumeSleepingLoop clock rounds) := by
  induction rounds with
  | zero => exact fun _ => ⟨rfl, rfl⟩
  | succ rounds ih =>
      intro executor
      unfold resumeSleepingLoop
      split
      · exact ⟨rfl, rfl⟩
      next head rest _ =>
        split
        · refine Meets.bind (operates_pushResumed head _) fun middle kept => ?_
          refine ((ih middle).mono fun _ => kept.trans).tolerate fun _ => ?_
          exact Or.imp_left (And.imp_right kept.contends)
        · exact ⟨rfl, rfl⟩

/-- The sleeping tasks are transferred without a panic when nothing is borrowed. -/
theorem operates_resumeSleepingTasks (clock : Nat → Instant)
    : Operates (fun executor => ∃ queue, executor.borrowed queue = true)
        (resumeSleepingTasks clock) := by
  intro executor
  have operates (clock : Nat → Instant) :=
    operates_resumeSleepingLoop clock (executor.sleepQueue.length + 1)
  unfold resumeSleepingTasks
  split
  next kind =>
    refine (operates_withBorrow (operates_withBorrow (operates _)) executor).tolerate fun _ =>
      Or.imp_left (And.imp_right ?_)
    rintro (ready | sleep | ⟨interrupt, _⟩)
    · exact ⟨_, ready⟩
    · exact ⟨.sleep, by simpa [borrowing] using sleep⟩
    · cases kind.symm.trans interrupt
  next =>
    refine (operates_withBorrow (operates _) executor).tolerate fun _ =>
      Or.imp_left (And.imp_right ?_)
    rintro (sleep | ⟨_, ready⟩)
    · exact ⟨_, sleep⟩
    · exact ⟨.ready, by simpa [borrowing] using ready⟩

/-- The transfer of the tasks that wait for the interrupt keeps the borrows, by induction on
its rounds.
-/
theorem operates_resumeWfiLoop (rounds : Nat)
    : Operates (fun _ => False) (resumeWfiLoop rounds) := by
  induction rounds with
  | zero => exact fun _ => ⟨rfl, rfl⟩
  | succ rounds ih =>
      intro executor
      unfold resumeWfiLoop
      split
      · exact ⟨rfl, rfl⟩
      next head rest _ =>
        refine Meets.bind (operates_pushReady head _) fun middle kept => ?_
        exact (ih middle).mono fun _ => kept.trans

theorem operates_resumeWfiTasks
    : Operates (fun executor => ∃ queue, executor.borrowed queue = true) resumeWfiTasks := by
  intro executor
  refine (operates_withBorrow (operates_guarded (operates_resumeWfiLoop _)) executor).tolerate
    fun _ => Or.imp_left (And.imp_right ?_)
  rintro (wfi | ready)
  · exact ⟨_, wfi⟩
  · exact ⟨.ready, by simpa [borrowing] using ready⟩

end Executor

end Scars
