import Scars.Kernel.QueueLinks
import Scars.Task.Notifying
import Scars.Task.WakeRuns

/-! Waking over whole runs of an executor and those who notify it.
If no wake finds a task awake already and no request meets another one under way, no queue finds
a link in use, and a woken task is pending or ready until it is polled.
-/

namespace Scars

open Runs
open Outcome (Meets)

/-- A fault other than a link in use. -/
def Fault.Unlinked (fault : Fault) : Prop :=
  fault ≠ .alreadyInList ∧ fault ≠ .queue .itemAlreadyInQueue

/-- No fault of the executor itself is a link in use. -/
theorem Fault.Loose.unlinked (fault : Fault) (loose : fault.Loose) : fault.Unlinked := by
  rcases loose with rfl | rfl | rfl <;> exact ⟨nofun, nofun⟩

namespace Notifying

variable {fuel : Nat} {state : Notifying} {context : ExecutionContext} {handler : HandlerId}

/-- A step of the executor is calm. A context asks whether a poll is pending while no other is
between that question and its push; a request that is parked finds its suspendable not parked.
-/
def calm (state : Notifying) : NotifyEvent → Bool
  | .executor event => state.toPolling.calm event
  | .resumeTask _ task => state.toPolling.calm (.wake task)
  | .goOn context waits lock =>
      match state.call context with
      | some (.sendEvents thread) =>
          !(waits && refused context lock) || !state.pending.isLinked (.thread thread)
      | some (.setPendingExecutorPoll handler) =>
          state.calls.all fun call => decide (call.2 ≠ .pushExecutorPoll handler)
      | some (.scheduleWakeup handler) =>
          !refused context lock || !state.pending.isLinked (.interrupt handler)
      | _ => true
  | _ => true

/-- The executor's queues are in order. For each handler at most one context is about to push its
poll, and the handler's node is free for it.
-/
structure Considerate (state : Notifying) : Prop where
  attentive : state.toPolling.Attentive
  free
    : ∀ context handler,
        (context, .pushExecutorPoll handler) ∈ state.calls → state.polls.isLinked handler = false
  single
    : ∀ first second handler,
        (first, .pushExecutorPoll handler) ∈ state.calls
        → (second, .pushExecutorPoll handler) ∈ state.calls
        → first = second

/-- Nobody is notified yet. -/
theorem considerate_start (owner : ExecutionContext) : Considerate (start owner) :=
  ⟨Polling.attentive_start _, nofun, nofun⟩

/-- Fewer contexts are about to push a poll, and no more handlers are linked. -/
theorem Considerate.fewer (considerate : Considerate state) {next : Notifying}
    (attentive : next.toPolling.Attentive)
    (calls
      : ∀ context handler,
          (context, .pushExecutorPoll handler) ∈ next.calls
          → (context, .pushExecutorPoll handler) ∈ state.calls)
    (polls
      : ∀ handler, state.polls.isLinked handler = false → next.polls.isLinked handler = false)
    : Considerate next :=
  ⟨attentive,
    fun context handler pushes =>
      polls handler (considerate.free context handler (calls context handler pushes)),
    fun first second handler one other =>
      considerate.single first second handler (calls _ _ one) (calls _ _ other)⟩

/-- A context that leaves its call is about to push nothing. -/
theorem Considerate.leave (considerate : Considerate state) (context : ExecutionContext)
    : Considerate (state.leave context) :=
  considerate.fewer considerate.attentive
    (fun _ _ pushes => List.mem_of_mem_filter pushes) fun _ free => free

/-- A step of the executor leaves no push of a poll to do. -/
theorem not_pushes_stillToDo {owner : ExecutionContext} {before after : Polling}
    : .pushExecutorPoll handler ∉ stillToDo owner context before after := by
  unfold stillToDo notification
  split
  · split <;> simp
  · split
    · simp
    · split <;> simp

section

variable (considerate : Considerate state)
include considerate

/-- A calm step of the executor keeps everything in order. -/
theorem Considerate.perform {event : PollEvent} (quiet : state.toPolling.calm event = true)
    : Meets Considerate Fault.Unlinked (state.perform (fuel + 1) context event) := by
  unfold Notifying.perform
  split
  · exact ⟨nofun, nofun⟩
  · refine ((considerate.attentive.step quiet).tolerate Fault.Loose.unlinked).bind ?_
    intro polling attentive
    have he : Polling.Attentive { polling with notified := false } :=
      ⟨⟨attentive.intact, attentive.ready, attentive.apart, attentive.sleep, attentive.wfi,
        attentive.links⟩, attentive.woken⟩
    refine considerate.fewer he (fun other handler pushes => ?_) fun _ free => free
    rcases List.mem_append.mp pushes with new | old
    · obtain ⟨stage, still, pair⟩ := List.mem_map.mp new
      cases pair
      exact absurd still not_pushes_stillToDo
    · exact old

/-- A request that is parked with its node free meets no link in use. -/
theorem Considerate.pushPending {queue : PendingQueue} {suspendable : Suspendable}
    (free : state.pending.isLinked suspendable = false)
    : Meets Considerate Fault.Unlinked (state.pushPending fuel queue suspendable) := by
  have pushed := QueueMemory.pushBack_flags free fuel queue
  unfold Notifying.pushPending
  split
  · exact ⟨considerate.attentive, considerate.free, considerate.single⟩
  next fault failed =>
    cases pushed.of_error failed
    exact ⟨nofun, nofun⟩

/-- The one context that was about to push the poll of a handler pushes it. -/
theorem Considerate.pushExecutorPoll (pushes : (context, .pushExecutorPoll handler) ∈ state.calls)
    : Meets Considerate Fault.Unlinked
        ((state.leave context).pushExecutorPoll fuel handler) := by
  have free : (state.leave context).polls.isLinked handler = false :=
    considerate.free context handler pushes
  have pushed := QueueMemory.pushBack_flags free fuel ()
  unfold Notifying.pushExecutorPoll
  split
  next polls after =>
    refine ⟨considerate.attentive, fun other handler' remains => ?_,
      (considerate.leave context).single⟩
    have hne : handler' ≠ handler := by
      rintro rfl
      have left : other ≠ context := by simpa using (List.mem_filter.mp remains).2
      exact left (considerate.single other context handler' (List.mem_of_mem_filter remains) pushes)
    rw [pushed.of_ok after handler' hne]
    exact (considerate.leave context).free other handler' remains
  next fault failed =>
    cases pushed.of_error failed
    exact ⟨nofun, nofun⟩

/-- A context that found the handler not linked, with no other between its question and its push,
is about to push the poll.
-/
theorem Considerate.enter (free : state.polls.isLinked handler = false)
    (alone : ∀ other, (other, .pushExecutorPoll handler) ∉ state.calls)
    : Considerate (state.enter context (.pushExecutorPoll handler)) := by
  refine ⟨considerate.attentive, fun other handler' pushes => ?_, fun first second handler' => ?_⟩
  · rcases List.mem_cons.mp pushes with this | old
    · cases this
      exact free
    · exact considerate.free other handler' old
  · intro one other
    rcases List.mem_cons.mp one with this | old
    · cases this
      rcases List.mem_cons.mp other with he | older
      · cases he
        rfl
      · exact absurd older (alone second)
    · rcases List.mem_cons.mp other with this | older
      · cases this
        exact absurd old (alone first)
      · exact considerate.single first second handler' old older

/-- A calm step of a call keeps everything in order, by cases on how far the call is. -/
theorem Considerate.goOn {waits : Bool} {lock : Option ExecutionContext} {stage : NotifyStage}
    (here : state.call context = some stage) (quiet : calm state (.goOn context waits lock) = true)
    : Meets Considerate Fault.Unlinked
        ((state.leave context).goOn (fuel + 1) context waits lock stage) := by
  have left := considerate.leave context
  simp only [calm, here] at quiet
  cases stage with
  | sendEvents thread =>
      simp only [Notifying.goOn]
      split
      next parks =>
        rw [parks] at quiet
        exact left.pushPending (by simpa [Notifying.leave] using quiet)
      · exact left
  | pollNow => exact left.perform rfl
  | setPendingExecutorPoll handler =>
      simp only [Notifying.goOn]
      split
      · exact left
      next free =>
        refine left.enter (by simpa using free) fun other pushes => ?_
        have apart := List.all_eq_true.mp quiet _ (List.mem_of_mem_filter pushes)
        simp at apart
  | pushExecutorPoll handler =>
      obtain ⟨before, after, calls, -⟩ := List.lookup_eq_some_iff.mp here
      exact considerate.pushExecutorPoll (by simp [calls])
  | scheduleWakeup handler =>
      simp only [Notifying.goOn]
      split
      next parks =>
        rw [parks] at quiet
        exact left.pushPending (by simpa [Notifying.leave] using quiet)
      · exact left

/-- A calm step keeps everything in order and finds no link in use. -/
theorem Considerate.step {event : NotifyEvent} (quiet : calm state event = true)
    : Meets Considerate Fault.Unlinked (state.step (fuel + 1) event) := by
  cases event with
  | executor event =>
      simp only [Notifying.step]
      split
      · exact ⟨nofun, nofun⟩
      · exact considerate.perform quiet
  | resumeTask context task =>
      refine considerate.perform ?_
      split <;> exact quiet
  | wakeupInterrupt context handler =>
      simp only [Notifying.step]
      split
      · exact ⟨nofun, nofun⟩
      · refine considerate.fewer considerate.attentive (fun other _ pushes => ?_) fun _ free => free
        rcases List.mem_cons.mp pushes with this | old
        · cases this
        · exact old
  | goOn context waits lock =>
      simp only [Notifying.step]
      split
      · exact ⟨nofun, nofun⟩
      next stage here => exact considerate.goOn here quiet
  | pollPending =>
      have taken := state.polls.popFront_flags (fuel + 1) ()
      simp only [Notifying.step]
      split
      next fault failed =>
        have other := taken.of_error failed
        exact ⟨nofun, by simpa using other⟩
      next popped polls after =>
        have popped : Considerate { state with polls } :=
          considerate.fewer considerate.attentive (fun _ _ pushes => pushes) (taken.of_ok after)
        split
        · exact popped.perform rfl
        · exact popped
  | completePending queue =>
      have taken := state.pending.popFront_flags (fuel + 1) queue
      simp only [Notifying.step]
      split
      next fault failed =>
        have other := taken.of_error failed
        exact ⟨nofun, by simpa using other⟩
      · exact ⟨considerate.attentive, considerate.free, considerate.single⟩

end

/-- In every state that a calm run reaches the ready queue has each task at most once, every
woken task is pending or ready, and no calm step finds a link in use. Witness: the invariant of
the run.
-/
theorem waking_is_idempotent (owner : ExecutionContext) (fuel : Nat) (state : Notifying)
    (reached
      : Reaches (step (fuel + 1)) (fun state event => calm state event = true) (start owner) state)
    : state.readyQueue.Nodup
      ∧ (∃ fifos, Represents state.pendingReadyQueue fifos
          ∧ ∀ task, state.woken task = true → task ∈ fifos.items () ∨ task ∈ state.readyQueue)
      ∧ ∀ event, calm state event = true
        → state.step (fuel + 1) event ≠ .error .alreadyInList
          ∧ state.step (fuel + 1) event ≠ .error (.queue .itemAlreadyInQueue) := by
  have considerate : Considerate state :=
    reached.invariant Considerate (considerate_start owner) fun _ _ _ considerate quiet hs =>
      (considerate.step quiet).of_ok hs
  have attentive := considerate.attentive
  obtain ⟨fifos, hr⟩ := attentive.intact
  refine ⟨attentive.ready, ⟨fifos, hr, fun task woken => ?_⟩, fun event quiet => ?_⟩
  · rw [← hr.isLinked_iff]
    exact Executor.awake_iff.mp (attentive.woken task woken)
  · have meets : Meets Considerate Fault.Unlinked (state.step (fuel + 1) event) :=
      considerate.step quiet
    exact ⟨fun fails => (meets.of_error fails).1 rfl, fun fails => (meets.of_error fails).2 rfl⟩

/-- Tasks 1 and 2 are polled once after these steps, and sleep until 5. -/
def fallAsleep (begun : List NotifyEvent) (transfers : Nat) : List NotifyEvent :=
  let advance := .executor (.advance fun _ => 0)
  begun ++ .replicate transfers advance
    ++ [advance, .executor (.op (.sleepUntil 5)), .executor (.endPoll false),
      advance, .executor (.op (.sleepUntil 5)), .executor (.endPoll false), advance]

/-- On the executor of thread 1. -/
def asleepInThread : List NotifyEvent :=
  fallAsleep [.executor (.op (.spawn 2)), .executor (.blockOn 1)] 3

/-- On the executor of handler 1, which finds the preemption lock as given at the end. -/
def asleepInHandler (lock : Option ExecutionContext) : List NotifyEvent :=
  fallAsleep
      [.executor (.op (.spawn 1)), .executor (.op (.spawn 2)), .executor (.poll .onAttach)] 4
    ++ [.goOn (.interrupt 1) false lock]

/-- Handler 2 wakes task 1 and requests the poll. -/
def wokenInHandler : List NotifyEvent :=
  asleepInHandler none
    ++ [.resumeTask (.interrupt 2) 1, .goOn (.interrupt 2) false none,
      .goOn (.interrupt 2) false none]

theorem waking_is_idempotent_asleep
    : ∃ state, run (step 3) (start (.interrupt 1)) wokenInHandler = .ok state
        ∧ state.polls.isLinked 1 = true ∧ state.woken 1 = true
        ∧ ∃ fifos, Represents state.pendingReadyQueue fifos
            ∧ (1 ∈ fifos.items () ∨ 1 ∈ state.readyQueue) := by
  obtain ⟨state, ran⟩
    : ∃ state, run (step 3) (start (.interrupt 1)) wokenInHandler = .ok state := ⟨_, rfl⟩
  have requested := view_of_ok (fun state : Notifying => state.polls.isLinked 1) ran rfl
  have woken := view_of_ok (fun state : Notifying => state.woken 1) ran rfl
  have reached := Reaches.run_allowed calm .here (by decide +kernel) ran
  obtain ⟨_, ⟨fifos, hr, awake⟩, _⟩ := waking_is_idempotent (.interrupt 1) 2 state reached
  exact ⟨state, ran, requested, woken, fifos, hr, awake 1 woken⟩

/-- A task is woken while it is pending already. A sleeping task is woken, and its deadline has
expired when the executor runs again. A handler asks whether a poll is pending, and before it
pushes the poll another handler does. Two tasks are woken by an interrupt of thread 7, which holds
the preemption lock; and the executor of a handler is polled twice while that thread holds it.
-/
theorem second_wake_faults
    : (∃ state, run (step 3) (start (.thread 1))
          (asleepInThread ++ [.resumeTask (.interrupt 2) 1, .goOn (.interrupt 2) true none])
            = .ok state
        ∧ state.step 3 (.resumeTask (.interrupt 2) 1) = .error (.queue .itemAlreadyInQueue))
      ∧ (∃ state, run (step 3) (start (.thread 1))
            (asleepInThread
              ++ [.resumeTask (.interrupt 2) 1, .goOn (.interrupt 2) true none,
                .executor .wakeup, .executor (.advance fun _ => 9)]) = .ok state
          ∧ state.step 3 (.executor (.advance fun _ => 9)) = .error .alreadyInList)
      ∧ (∃ state, run (step 3) (start (.interrupt 1))
            (asleepInHandler none
              ++ [.resumeTask (.interrupt 2) 1, .goOn (.interrupt 2) false none,
                .resumeTask (.interrupt 3) 2, .goOn (.interrupt 3) false none,
                .goOn (.interrupt 3) false none]) = .ok state
          ∧ state.step 3 (.goOn (.interrupt 2) false none)
            = .error (.queue .itemAlreadyInQueue))
      ∧ (∃ state, run (step 3) (start (.thread 1))
            (asleepInThread
              ++ [.resumeTask (.interrupt 2) 1, .goOn (.interrupt 2) true (some (.thread 7)),
                .resumeTask (.interrupt 2) 2]) = .ok state
          ∧ state.step 3 (.goOn (.interrupt 2) true (some (.thread 7)))
            = .error (.queue .itemAlreadyInQueue))
      ∧ ∃ state, run (step 3) (start (.interrupt 1))
            (asleepInHandler (some (.thread 7))
              ++ .executor (.poll .onInterrupt) :: .replicate 4 (.executor (.advance fun _ => 0)))
            = .ok state
          ∧ state.step 3 (.goOn (.interrupt 1) false (some (.thread 7)))
            = .error (.queue .itemAlreadyInQueue) :=
  ⟨⟨_, rfl, rfl⟩, ⟨_, rfl, rfl⟩, ⟨_, rfl, rfl⟩, ⟨_, rfl, rfl⟩, _, rfl, rfl⟩

end Notifying

end Scars
