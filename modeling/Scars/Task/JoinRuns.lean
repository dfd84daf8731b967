import Scars.Task.JoinSteps

/-! Joining over whole runs.
`join` pushes its task to the ready queue whatever became of the task. In runs that join only
running tasks with no link in use nothing panics, and every output is returned when the future
returns it.
-/

namespace Scars.Joining

open Runs Executor Polling

variable {T : Type} {fuel : Nat} {state next : Joining T} {task : TaskId}

theorem onPolling_returned {event : PollEvent} (hs : state.onPolling fuel event = .ok next)
    : next.returned = state.returned := by
  obtain ⟨_, _, rfl⟩ := onPolling_ok hs
  rfl

theorem enterBlockOn_returned (entered : state.enterBlockOn task = .ok next)
    : next.returned = state.returned := by
  obtain ⟨_, rest⟩ := checked_ok.mp entered
  obtain ⟨_, _, he⟩ := bind_ok.mp rest
  cases he
  rfl

/-- Only the return of the task that `block_on` waits for adds an output, and it adds that one. -/
theorem Joined.step_returned (joined : Joined state) {event : JoinEvent T}
    (hs : state.step fuel event = .ok next)
    : next.returned = state.returned
      ∨ ∃ output, event = .endPoll (some output)
          ∧ state.place = .running state.blockOnTask
          ∧ next.returned = state.returned ++ [(state.blockOnTask, output)] := by
  cases event with
  | spawn task =>
      obtain ⟨middle, initialised, rest⟩ := bind_ok.mp hs
      obtain ⟨last, spawned, he⟩ := bind_ok.mp rest
      obtain ⟨_, _, rfl⟩ := init_ok initialised
      cases he
      have kept := onPolling_returned spawned
      exact .inl kept
  | blockOn task =>
      obtain ⟨middle, initialised, entered⟩ := bind_ok.mp hs
      obtain ⟨_, _, rfl⟩ := init_ok initialised
      have kept := enterBlockOn_returned entered
      exact .inl kept
  | join task =>
      have kept := enterBlockOn_returned (checked_ok.mp hs).2
      exact .inl kept
  | dropHandle task =>
      have dropped := (checked_ok.mp hs).2
      simp only [Joining.dropHandle] at dropped
      split at dropped
      · have kept := onPolling_returned dropped
        exact .inl kept
      · cases dropped
        exact .inl rfl
  | advance clock => exact .inl (onPolling_returned hs)
  | sleepUntil deadline => exact .inl (onPolling_returned hs)
  | endPoll output =>
      simp only [Joining.step] at hs
      cases here : state.place with
      | running task =>
          by_cases other : output = none ∨ task ≠ state.blockOnTask
          case pos =>
              rw [endPoll_continues joined here other] at hs
              cases hs
              cases output <;> exact .inl rfl
          case neg =>
              rw [not_or, not_not] at other
              obtain ⟨value, rfl⟩ := Option.ne_none_iff_exists'.mp other.1
              rw [endPoll_returns joined here other.2] at hs
              obtain ⟨executor, resumed, he⟩ := bind_ok.mp hs
              cases he
              exact .inr ⟨value, rfl, by rw [other.2], by rw [← other.2]; rfl⟩
      | outside | resuming | polling | waiting =>
          simp only [Joining.endPoll, here] at hs
          cases hs
  | wakeup => exact .inl (onPolling_returned hs)
  | wake task => exact .inl (onPolling_returned hs)

/-- In every state that a fitting run reaches: the polled task and the one that `block_on` waits
for run, that is, their futures did not return yet; `block_on` sleeps only when every task that
was made ready has been polled or is pending; an output is returned exactly when the poll of the
task that `block_on` waits for ends with it. As long as there are not more pending tasks than the
bound of a transfer, no fitting step panics, `join` enters `block_on`, and the end of that poll
returns the output and frees the slot. Witness: the invariant of the run.
-/
theorem join_returns_output (fuel : Nat) (state : Joining T)
    (reached
      : Reaches (step (fuel + 1)) (fun state event => fits state event = true) (start T) state)
    : (∀ task, state.place = .running task → (state.slot task).state = .running)
      ∧ (state.place ≠ .outside → (state.slot state.blockOnTask).state = .running)
      ∧ (∀ task, state.woken task = true → state.awake task = true)
      ∧ (state.place = .waiting → state.readyQueue = [])
      ∧ (∀ event next, state.step (fuel + 1) event = .ok next
          → next.returned = state.returned
            ∨ ∃ output, event = .endPoll (some output)
                ∧ state.place = .running state.blockOnTask
                ∧ next.returned = state.returned ++ [(state.blockOnTask, output)])
      ∧ ∃ fifos, Represents state.pendingReadyQueue fifos
          ∧ ((fifos.items ()).length ≤ fuel
            → (∀ event fault, fits state event = true
                → state.step (fuel + 1) event = .error fault
                → fault = .notCallable)
              ∧ (∀ task, state.place = .outside
                → state.joinHandle task = true
                → fits state (.join task) = true
                → ∃ next, state.step (fuel + 1) (.join task) = .ok next
                    ∧ next.blockOnTask = task
                    ∧ task ∈ next.readyQueue
                    ∧ next.joinHandle task = false)
              ∧ ∀ output, state.place = .running state.blockOnTask
                → ∃ next, state.step (fuel + 1) (.endPoll (some output)) = .ok next
                    ∧ next.place = .outside
                    ∧ next.returned = state.returned ++ [(state.blockOnTask, output)]
                    ∧ (next.slot state.blockOnTask).state = .free
                    ∧ next.output state.blockOnTask = none) := by
  have joined : Joined state :=
    reached.invariant Joined joined_start fun _ _ _ joined well hs =>
      (joined.meets_step well).of_ok hs
  obtain ⟨fifos, hr⟩ := joined.within.intact
  refine ⟨joined.polled, joined.blocking, joined.attentive.woken, joined.waiting,
    fun event next => joined.step_returned, fifos, hr, fun few => ⟨?_, ?_, ?_⟩⟩
  · exact fun event fault well fails =>
      (joined.meets_step well).of_error fails fifos hr few
  · intro task outside handle well
    have loose : state.linked task = false := by
      simp only [fits, Bool.and_eq_true, Bool.not_eq_true'] at well
      exact well.2
    have entered :=
      enterBlockOn_eq (joined.takeHandle task) outside (not_linked_iff.mp loose).1
    refine ⟨_, (if_pos handle).trans entered, rfl, by simp, by simp [Joining.takeHandle]⟩
  · intro output here
    obtain ⟨executor, resumed⟩ := joined.resumes here rfl hr few
    have returns : state.step (fuel + 1) (.endPoll (some output))
        = .ok (state.handOver executor state.blockOnTask output) := by
      simp only [Joining.step]
      rw [endPoll_returns joined here rfl, resumed]
      rfl
    refine ⟨_, returns, rfl, rfl, ?_, ?_⟩
    · simp [Joining.handOver, Joining.setSlot, Slot.dropHandle]
    · simp [Joining.handOver]

/-- Task 1 is spawned and polled once while `block_on` runs task 2 to its end. -/
def pendingTask : List (JoinEvent Nat) :=
  [.spawn 1, .blockOn 2, .advance fun _ => 0, .advance fun _ => 0, .advance fun _ => 0,
    .advance fun _ => 0, .endPoll none, .advance fun _ => 0, .endPoll (some 5)]

/-- Task 1 is joined and polled again. -/
def joinedTask : List (JoinEvent Nat) :=
  [.join 1, .advance fun _ => 0, .advance fun _ => 0, .advance fun _ => 0, .advance fun _ => 0]

/-- The joined task returns 9 from its poll, and so does the join. -/
theorem join_returns_output_pending
    : ∃ state next, run (step 3) (start Nat) (pendingTask ++ joinedTask) = .ok state
        ∧ state.place = .running 1
        ∧ (state.slot 1).state = .running
        ∧ state.step 3 (.endPoll (some 9)) = .ok next
        ∧ next.place = .outside
        ∧ next.returned = [(2, 5), (1, 9)] := by
  obtain ⟨state, ran⟩
    : ∃ state, run (step 3) (start Nat) (pendingTask ++ joinedTask) = .ok state := ⟨_, rfl⟩
  have here : state.place = .running 1 :=
    view_of_ok (fun state : Joining Nat => state.place) ran rfl
  have awaited : state.blockOnTask = 1 :=
    view_of_ok (fun state : Joining Nat => state.blockOnTask) ran rfl
  have returned : state.returned = [(2, 5)] :=
    view_of_ok (fun state : Joining Nat => state.returned) ran rfl
  have empty : (state.pendingReadyQueue.isEmpty ()).1 = true :=
    view_of_ok (fun state : Joining Nat => (state.pendingReadyQueue.isEmpty ()).1) ran rfl
  have reached := Reaches.run_allowed fits .here (by decide) ran
  obtain ⟨hrun, -, -, -, -, fifos, hr, calls⟩ := join_returns_output 2 state reached
  have none := hr.isEmpty.1.symm.trans empty
  obtain ⟨-, -, returns⟩ := calls (by rw [List.isEmpty_iff.mp none]; exact Nat.zero_le 2)
  obtain ⟨next, ended, outside, output, -⟩ := returns 9 (by rw [awaited]; exact here)
  rw [returned, awaited] at output
  exact ⟨state, next, ran, here, hrun 1 here, ended, outside, output⟩

/-- A task is joined that was spawned and not polled yet; that is pending; that sleeps and is due;
and that is finished, whose future is then polled again.
-/
theorem join_panics_or_polls_finished
    : (∃ state, run (step 3) (start Nat) [.spawn 1] = .ok state
        ∧ state.step 3 (.join 1) = .error .alreadyInList)
      ∧ (∃ state, run (step 3) (start Nat)
            (pendingTask ++ [.wake 1, .join 1, .advance fun _ => 0]) = .ok state
          ∧ state.step 3 (.advance fun _ => 0) = .error .alreadyInList)
      ∧ (∃ state, run (step 3) (start Nat)
            [.spawn 1, .blockOn 2, .advance fun _ => 0, .advance fun _ => 0, .advance fun _ => 0,
              .advance fun _ => 0, .sleepUntil 5, .endPoll none, .advance fun _ => 0,
              .endPoll (some 5), .join 1] = .ok state
          ∧ state.step 3 (.advance fun _ => 9) = .error .alreadyInList)
      ∧ ∃ state, run (step 3) (start Nat)
            ([.spawn 1, .blockOn 2, .advance fun _ => 0, .advance fun _ => 0,
              .advance fun _ => 0, .advance fun _ => 0, .endPoll (some 7), .advance fun _ => 0,
              .endPoll (some 5)] ++ joinedTask) = .ok state
          ∧ state.place = .running 1
          ∧ (state.slot 1).state = .finished :=
  ⟨⟨_, rfl, rfl⟩, ⟨_, rfl, rfl⟩, ⟨_, rfl, rfl⟩, _, rfl, rfl, rfl⟩

end Scars.Joining
