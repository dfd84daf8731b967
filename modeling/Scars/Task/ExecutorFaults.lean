import Scars.Task.Waking

/-! Which faults the operations of an executor raise.
Apart from the panics of its queues there is only the bound of a transfer, which has room for
every pending task if there are not more of them.
-/

namespace Scars

open Runs Function
open Outcome (Meets)

/-- The panics of the queues. -/
def Fault.OfQueue (fault : Fault) : Prop :=
  fault = .alreadyBorrowed ∨ fault = .alreadyInList ∨ ∃ error, fault = .queue error

namespace Executor

variable {executor executor' : Executor} {task : TaskId} {fuel rounds : Nat}
  {fifos : Fifos Unit TaskId}

/-- The operation raises no other fault. -/
def Raises (operation : Executor → Except Fault Executor) : Prop :=
  ∀ executor, Meets (fun _ => True) Fault.OfQueue (operation executor)

theorem raises_borrowMut (queue : ExecutorQueue) : Raises (borrowMut queue) :=
  fun _ => (meets_borrowMut.mono fun _ _ => True.intro).tolerate fun _ taken => .inl taken.1

theorem Operates.raises {clashes : Executor → Prop} {operation : Executor → Except Fault Executor}
    (operates : Operates clashes operation)
    : Raises operation :=
  fun executor =>
    ((operates executor).mono fun _ _ => True.intro).tolerate fun _ => Or.imp_left And.left

theorem pushResumed_ok (pushed : executor.pushResumed task = .ok executor')
    : executor' = { executor with readyQueue := executor.readyQueue ++ [task] } := by
  unfold pushResumed at pushed
  split at pushed
  · exact (pushReady_ok pushed).2
  · exact spawn_ok pushed

section

variable (hr : Represents executor.pendingReadyQueue fifos)
include hr

/-- The transfer of the pending tasks comes to its end when it has more rounds than there are
tasks, by induction on the rounds.
-/
theorem meets_resumePendingLoop (few : (fifos.items ()).length < rounds)
    : Meets (fun _ => True) Fault.OfQueue (executor.resumePendingLoop (fuel + 1) rounds) := by
  induction rounds generalizing executor fifos with
  | zero => cases few
  | succ rounds ih =>
      obtain ⟨memory, popping, hr'⟩ := hr.popFront fuel ()
      unfold resumePendingLoop
      rw [popping]
      cases items : fifos.items () with
      | nil =>
          simp only [Fifos.pop, items]
          exact True.intro
      | cons head rest =>
          simp only [Fifos.pop, items] at hr' ⊢
          simp only [items, List.length_cons] at few
          cases pushed : { executor with pendingReadyQueue := memory }.pushResumed head with
          | error fault => exact ((operates_pushResumed head).raises _).of_error pushed
          | ok middle =>
              have he : middle.pendingReadyQueue = memory := by rw [pushResumed_ok pushed]
              rw [← he] at hr'
              refine (ih hr' ?_).bind fun _ _ => True.intro
              simpa using Nat.lt_of_succ_lt_succ few

theorem meets_resumePendingTasks (few : (fifos.items ()).length ≤ fuel) (notify : Bool)
    : Meets (fun _ => True) Fault.OfQueue (executor.resumePendingTasks (fuel + 1) notify) := by
  have enough := Nat.lt_succ_of_le few
  unfold resumePendingTasks
  split
  · refine (meets_borrowMut.tolerate fun _ taken => .inl taken.1).bind ?_
    rintro inner ⟨_, rfl⟩
    have still : Represents (executor.borrowing .ready).pendingReadyQueue fifos := hr
    exact (meets_resumePendingLoop still enough).bind fun _ _ => True.intro
  · exact (meets_resumePendingLoop hr enough).bind fun _ _ => True.intro

theorem meets_resume (few : (fifos.items ()).length ≤ fuel) (clock : Nat → Instant)
    (resumption : Resumption)
    : Meets (fun _ => True) Fault.OfQueue
        (Polling.resume (fuel + 1) clock resumption executor) := by
  cases resumption with
  | wfi => exact operates_resumeWfiTasks.raises executor
  | sleeping => exact (operates_resumeSleepingTasks clock).raises executor
  | pending => exact meets_resumePendingTasks hr few false

end

/-- A task that is not awake is spawned, as long as the ready queue is not borrowed. -/
theorem Waking.spawn_eq (waking : Waking executor) (asleep : executor.awake task = false)
    (free : executor.borrowed .ready = false)
    : executor.spawn task
      = .ok { executor with readyQueue := executor.readyQueue ++ [task] } := by
  have pushed := (waking.borrow (update executor.borrowed .ready true)).pushReady asleep
  have he : update executor.borrowed .ready false = executor.borrowed := by
    rw [← free, update_eq_self]
  simp only [Executor.spawn, withBorrow, borrowMut, free, Bool.false_eq_true, if_false]
  simp only [bind, Except.bind, pushed.1]
  simp only [pure, Except.pure, release, update_idem, he]

/-- The transfer of the pending tasks returns while the ready queue is not borrowed. -/
theorem Waking.resumePendingTasks_returns (waking : Waking executor)
    (free : executor.borrowed .ready = false) (hr : Represents executor.pendingReadyQueue fifos)
    (few : (fifos.items ()).length ≤ fuel) (notify : Bool)
    : ∃ executor', executor.resumePendingTasks (fuel + 1) notify = .ok executor' := by
  cases resumed : executor.resumePendingTasks (fuel + 1) notify with
  | ok executor' => exact ⟨executor', rfl⟩
  | error fault =>
      have raised := (meets_resumePendingTasks hr few notify).of_error resumed
      have loose := (waking.resumePendingTasks fuel notify).of_error resumed
      rcases loose with rfl | rfl | rfl
      · rw [resumePendingTasks_error_iff, free] at resumed
        cases resumed.1
      · simp [Fault.OfQueue] at raised
      · simp [Fault.OfQueue] at raised

end Executor

end Scars
