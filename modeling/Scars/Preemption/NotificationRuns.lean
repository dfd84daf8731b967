import Scars.Preemption.Settling

/-! No notification is lost, in every run in which refused requests find their nodes free.
A thread that is blocked inside `thread_wait` is in the wait queue, or a request to resume it is
under way. The node of a thread that was popped last from `pending_resume` is still part of that
queue, and a request for it cuts off the others.
-/

namespace Scars.Machine

open Memory Runs ThreadExecutionState

variable {machine machine' : Machine} {program : Program} {fuel : Nat} {rest code : List Instr}

/-- Waiters can be notified from their insertion on, and threads that did not run yet wait for
nothing.
-/
structure Waiting (machine : Machine) : Prop where
  blocked
    : ∀ thread queue rest,
        machine.raw.state thread = .blocked
        → machine.code thread = .endWait queue :: rest
        → machine.Notifiable thread queue
  settling
    : ∀ code waiter queue rest,
        machine.HasCode code
        → settlesNext code = some waiter
        → machine.code waiter = .endWait queue :: rest
        → machine.Notifiable waiter queue
  fresh : ∀ thread, (machine.raw.state thread).Fresh → machine.code thread = [.user]

theorem start_waiting (program : Program) : (Machine.start program).Waiting where
  blocked thread queue rest _ inside := by cases inside
  settling code waiter queue rest hasCode settles _ := by
    rw [start_hasCode program hasCode] at settles
    cases settles
  fresh _ _ := rfl

/-- What holds of the machine in all runs of the condition. -/
structure Notifying (machine : Machine) : Prop where
  exclusive : machine.Exclusive
  settled : machine.Settled
  serving : machine.Serving
  intact : machine.Intact
  waiting : machine.Waiting

/-- A thread that a step blocks inside of its wait was inserted before. -/
theorem Notifying.blocked_step (notifying : machine.Notifying) (settled : machine'.Settled)
    {event : Event} (fifo : machine.PushesFifo fuel event)
    (hs : machine.step fuel event = .ok machine') {thread : ThreadId}
    {queue : WaitQueueId} (blocked : machine'.raw.state thread = .blocked)
    (inside : machine'.code thread = .endWait queue :: rest)
    : machine'.Notifiable thread queue := by
  obtain ⟨hx, -, serving, intact, waiting⟩ := notifying
  have notCurrent : thread ≠ machine'.raw.currentThread := by
    rintro rfl
    simp [settled.current_running] at blocked
  rw [code_step hx hs notCurrent] at inside
  have stays (before : machine.Notifiable thread queue) : machine'.Notifiable thread queue :=
    (before.step hx intact fifo hs).resolve_right fun resumed => resumed.2 blocked
  rcases Machine.blocked_step hs blocked with before | ⟨op, left, hrun, blocking⟩
  · exact stays (waiting.blocked thread queue rest before inside)
  · -- the current thread is blocked for another reason, and so is inside of another call
    unfold Locked.blocks at blocking
    split at blocking
    · cases blocking
      obtain ⟨left, other⟩ := serving.current hrun rfl
      rw [inside] at other
      cases other
    · cases blocking
      exact stays (waiting.settling _ thread queue rest (Or.inl hrun.symm) rfl inside)
    · cases blocking
      obtain ⟨timed, left, other⟩ := serving.current hrun rfl
      rw [inside] at other
      cases other
    · cases blocking

theorem Notifying.step (notifying : machine.Notifying) {event : Event}
    (fifo : machine.PushesFifo fuel event) (hs : machine.step fuel event = .ok machine')
    : machine'.Notifying := by
  have settled' := notifying.settled.step notifying.exclusive hs
  refine ⟨notifying.exclusive.step hs, settled', notifying.serving.step notifying.exclusive
    hs, intact_step notifying.intact fifo hs, ?_⟩
  constructor
  case blocked =>
    intro thread queue rest blocked inside
    exact notifying.blocked_step settled' fifo hs blocked inside
  case settling =>
    intro code waiter queue rest hasCode settles inside
    have notCurrent := settled'.notCurrent_of_settles hasCode settles
    rw [code_step notifying.exclusive hs notCurrent] at inside
    rcases notifying.settled.settling_step notifying.exclusive hs hasCode settles with
      ⟨⟨code, before, settles⟩, notResumed⟩ | ⟨other, saved, left, hrun, linked⟩
    · have notifiable := notifying.waiting.settling code waiter queue rest before settles inside
      exact (notifiable.step notifying.exclusive notifying.intact fifo hs).resolve_right
        fun resumed => notResumed resumed.1
    · obtain ⟨left, he⟩ := notifying.serving.inserting hrun rfl
      rw [inside] at he
      cases he
      exact Or.inl linked
  case fresh =>
    intro thread fresh
    have notCurrent : thread ≠ machine'.raw.currentThread := by
      rintro rfl
      simp [Fresh, settled'.current_running] at fresh
    rw [code_step notifying.exclusive hs notCurrent]
    have before := leaves_step passing_fresh (by simp [Fresh]) hs thread fresh
    exact notifying.waiting.fresh thread before

theorem Notifying.reached
    (reached
      : Reaches (Machine.step fuel) (fun machine event => machine.parksFree event = true)
          (Machine.start program) machine)
    : machine.Notifying :=
  reached.invariant Notifying
    ⟨start_exclusive program, start_settled program, start_serving program,
      ⟨.empty, represents_new⟩, start_waiting program⟩
    fun _ _ _ notifying free ran => notifying.step (pushesFifo_of_parksFree free) ran

/-- In a run in which refused requests find their nodes free, a thread that is blocked inside
`thread_wait` is in the wait queue or a request to resume it is under way, and a thread inside
`thread_wait` that was taken off the queue is ready, running or about to be resumed, unless it was
suspended. Witness: a waiter is notifiable from its insertion on, and a request stays under way
until the step that resumes the thread.
-/
theorem notification_not_lost
    (reached
      : Reaches (Machine.step fuel) (fun machine event => machine.parksFree event = true)
          (Machine.start program) machine)
    {thread : ThreadId} {queue : WaitQueueId}
    (inside : machine.code thread = .endWait queue :: rest)
    : (machine.raw.state thread = .blocked
        → .thread thread ∈ machine.raw.waitQueue queue ∨ machine.ResumePending thread)
      ∧ (.thread thread ∉ machine.raw.waitQueue queue
        → machine.raw.state thread = .ready
          ∨ machine.raw.state thread = .running
          ∨ machine.raw.state thread = .suspended
          ∨ machine.ResumePending thread)
      ∧ (Reaches (Machine.step fuel) (fun machine event => ¬ machine.Suspends event)
            (Machine.start program) machine
          → machine.raw.state thread ≠ .suspended) := by
  have waiting := (Notifying.reached reached).waiting
  have served (blocked : machine.raw.state thread = .blocked)
      : .thread thread ∈ machine.raw.waitQueue queue ∨ machine.ResumePending thread :=
    waiting.blocked thread queue rest blocked inside
  have aged : ¬ (machine.raw.state thread).Fresh := by
    intro fresh
    rw [waiting.fresh thread fresh] at inside
    cases inside
  refine ⟨served, fun popped => ?_, fun apart => ne_suspended_of_reaches apart thread⟩
  cases state : machine.raw.state thread with
  | created => exact absurd (Or.inl state) aged
  | started => exact absurd (Or.inr state) aged
  | ready => exact Or.inl rfl
  | running => exact Or.inr (Or.inl rfl)
  | suspended => exact Or.inr (Or.inr (Or.inl rfl))
  | blocked => exact Or.inr (Or.inr (Or.inr ((served state).resolve_left popped)))

/-- Thread 2 starts and waits, up to its insertion into queue 0. -/
def waitFirst : List Event :=
  .call (.start 2) :: List.replicate 26 (.exec 0)
    ++ .call (.wait 0 (.interrupt 4)) :: List.replicate 6 (.exec 0)

/-- Handler 5 notifies all waiters of queue 0, with the given number of instructions. -/
def notifyAll (steps : Nat) : List Event :=
  .fire 5 :: .call (.notify 0 true) :: List.replicate steps (.exec 0) ++ [.finish]

/-- A notification between the insertion and the block is parked, and the waiter becomes blocked
with the request under way.
-/
theorem notification_not_lost_deferred
    : let program : Program :=
        ⟨fun thread => .thread thread.toUInt8, fun _ => .interrupt 4, fun _ => .interrupt 3⟩
      ∃ machine : Machine,
        run (Machine.step 2) (Machine.start program)
          (waitFirst ++ notifyAll 3 ++ List.replicate 3 (.exec 0)) = .ok machine
        ∧ machine.raw.state 2 = .blocked
        ∧ machine.raw.waitQueue 0 = []
        ∧ machine.ResumePending 2 := by
  intro program
  obtain ⟨machine, ran⟩
      : ∃ machine : Machine,
          run (Machine.step 2) (Machine.start program)
            (waitFirst ++ notifyAll 3 ++ List.replicate 3 (.exec 0)) = .ok machine := by
    unfold program
    exact ⟨_, rfl⟩
  have blocked : machine.raw.state 2 = .blocked :=
    view_of_ok (fun machine : Machine => machine.raw.state 2) ran (by unfold program; rfl)
  have taken : machine.raw.waitQueue 0 = [] :=
    view_of_ok (fun machine : Machine => machine.raw.waitQueue 0) ran (by unfold program; rfl)
  have inside : machine.code 2 = [.endWait 0, .user] :=
    view_of_ok (fun machine : Machine => machine.code 2) ran (by unfold program; rfl)
  have reached :=
    Reaches.run_allowed parksFree .here (show _ = true by unfold program; rfl) ran
  have served := (notification_not_lost reached inside).1 blocked
  rw [taken] at served
  exact ⟨machine, ran, blocked, taken, served.resolve_left (by simp)⟩

set_option maxRecDepth 4000 in
/-- Thread 2 is resumed through `pending_resume`, so its node stays the head of that queue. Then
threads 3 and 2 wait, and both are notified before thread 2 is blocked: the request for thread 2
cuts off the one for thread 3. Both threads stay blocked, in no queue and with nothing pending.
-/
theorem notification_lost
    : let program : Program :=
        ⟨fun thread => .thread thread.toUInt8, fun _ => .interrupt 4, fun _ => .interrupt 3⟩
      let events : List Event :=
        waitFirst ++ notifyAll 3 ++ List.replicate 27 (.exec 0)
          ++ .call (.start 3) :: List.replicate 26 (.exec 0)
          ++ .call (.wait 0 (.interrupt 4)) :: List.replicate 19 (.exec 0)
          ++ .call (.wait 0 (.interrupt 4)) :: List.replicate 6 (.exec 0)
          ++ notifyAll 5 ++ List.replicate 14 (.exec 0)
      ∃ machine : Machine,
        run (Machine.step 2) (Machine.start program) events = .ok machine
        ∧ machine.frames = []
        ∧ machine.code 3 = [.endWait 0, .user]
        ∧ machine.raw.state 3 = .blocked
        ∧ machine.raw.waitQueue 0 = []
        ∧ ¬ machine.ResumePending 3 := by
  intro program events
  obtain ⟨machine, ran⟩
      : ∃ machine : Machine, run (Machine.step 2) (Machine.start program) events = .ok machine := by
    unfold program events
    exact ⟨_, rfl⟩
  have seen
      : (machine.frames, machine.code 1, machine.code 2, machine.code 3, machine.raw.state 3,
          machine.raw.waitQueue 0, (machine.pending.isEmpty .resume).1)
        = ([], [.user], [.endWait 0, .user], [.endWait 0, .user], .blocked, [], true) :=
    view_of_ok
      (fun machine : Machine =>
        (machine.frames, machine.code 1, machine.code 2, machine.code 3, machine.raw.state 3,
          machine.raw.waitQueue 0, (machine.pending.isEmpty .resume).1))
      ran (by unfold program events; rfl)
  simp only [Prod.mk.injEq] at seen
  obtain ⟨idle, first, second, third, blocked, taken, empty⟩ := seen
  refine ⟨machine, ran, idle, third, blocked, taken, ?_⟩
  have reached :=
    Reaches.run_allowed (fun machine _ => decide (machine.raw.currentThread ∈ [1, 2, 3]))
      .here (show _ = true by unfold program events; rfl) ran
  rintro (⟨fifos, hr, hq⟩ | ⟨code, hasCode, instr, hm, resumes⟩)
  · rw [hr.items_of_isEmpty empty] at hq
    cases hq
  · refine instr_of_listed (·.resumes ≠ some 3) reached
      (fun _ _ checked => of_decide_eq_true checked) idle ?_ ?_ code hasCode instr hm resumes
    · simp [Instr.resumes]
    · simp [first, second, third, Instr.resumes]

end Scars.Machine
