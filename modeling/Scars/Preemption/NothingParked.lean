import Scars.Preemption.ParkedWakeups

/-! No wake-up stays parked in a run whose requests all come in time. -/

namespace Scars.Machine

open Runs

variable {machine machine' : Machine} {fuel : Nat} {program : Program}

/-- Requests are deferred with a free node and while their queue will be emptied, and a
reschedule is asked for while somebody will execute it.
-/
def inTime (machine : Machine) (event : Event) : Bool :=
  machine.parksFree event && machine.defersInTime event && machine.asksInTime event

/-- Nothing is left to do for a thread that is outside of the code of `PreemptLock`. -/
def NothingParked (machine : Machine) : Prop :=
  machine.frames = []
  → sectionDepth machine.running = 0
  → looksForReschedule machine.running = false
  → (∀ suspendable, machine.pending.isLinked suspendable = false)
    ∧ machine.isPendingEmpty .resume = true ∧ machine.isPendingEmpty .sleep = true
    ∧ machine.raw.pendingRescheduleKind = RESCHEDULE_KIND_NONE

/-- Parked requests and a pending reschedule are under somebody's care. -/
structure Cared (machine : Machine) : Prop where
  exclusive : machine.Exclusive
  queues : machine.WillBeEmpty
  reschedule : machine.RescheduleDue

theorem start_cared (program : Program) : (Machine.start program).Cared where
  exclusive := start_exclusive program
  queues := ⟨_, represents_new, fun _ left => absurd rfl left⟩
  reschedule pending := absurd rfl pending

/-- A step in time leaves no request without care. -/
theorem Cared.step (cared : machine.Cared) {event : Event} (inTime : machine.inTime event = true)
    (hs : machine.step fuel event = .ok machine')
    : machine'.Cared := by
  obtain ⟨⟨free, defers⟩, asks⟩ :
      (machine.parksFree event = true ∧ machine.defersInTime event = true)
        ∧ machine.asksInTime event = true := by
    simpa [Machine.inTime] using inTime
  exact ⟨cared.exclusive.step hs, cared.queues.step cared.exclusive defers free hs,
    cared.reschedule.step cared.exclusive asks hs⟩

/-- A thread alone, outside of sections, has nobody left who would empty a queue. -/
theorem Exclusive.balanced_alone (hx : machine.Exclusive) (alone : machine.frames = [])
    (outside : sectionDepth machine.running = 0) {code : List Instr}
    (hasCode : machine.HasCode code)
    : Balanced 0 false code := by
  rcases hasCode with rfl | other
  · have held := hx.held
    rw [stack_eq] at held
    rcases held with ⟨balanced, -⟩ | ⟨-, ⟨depth, inside⟩, -⟩
    · exact balanced
    · rw [inside.sectionDepth_eq] at outside
      cases outside
  · unfold OtherCode at other
    rw [alone] at other
    obtain ⟨thread, notCurrent, rfl⟩ := other
    exact hx.others thread notCurrent

theorem Cared.nothingParked (cared : machine.Cared) : machine.NothingParked := by
  intro alone outside notLooking
  obtain ⟨fifos, hr, due⟩ := cared.queues
  have empty (queue : PendingQueue) : fifos.items queue = [] := by
    by_contra left
    obtain ⟨code, hasCode, ahead⟩ := due queue left
    rw [(cared.exclusive.balanced_alone alone outside hasCode).not_willDrain] at ahead
    cases ahead
  have isEmpty (queue : PendingQueue) : machine.isPendingEmpty queue = true := by
    rw [Memory.isPendingEmpty, hr.isEmpty.1, empty]
    rfl
  refine ⟨fun suspendable => ?_, isEmpty .resume, isEmpty .sleep, ?_⟩
  · simpa [empty] using hr.owned suspendable
  by_contra pending
  rcases cared.reschedule pending with ahead | ⟨-, looks⟩
  · rw [rescheduleAhead_iff, alone] at ahead
    have inside :=
      (cared.exclusive.lock_eq_some_iff _).mp (ahead.resolve_left (by simp [swapAhead]))
    have hrun : machine.running = machine.code machine.raw.currentThread := by
      unfold Machine.running
      rw [alone]
    rw [hrun] at outside
    exact absurd inside (by simp [InSection, outside])
  · rw [notLooking] at looks
    cases looks

/-- In a run whose requests all come in time, a thread outside of the code of `PreemptLock` with
no handler active leaves nothing parked. Witness: both queues and the pending reschedule stay
under somebody's care, step by step.
-/
theorem nothingParked_inTime
    (reached
      : Reaches (Machine.step fuel) (fun machine event => machine.inTime event = true)
          (Machine.start program) machine)
    : machine.NothingParked := by
  refine (reached.invariant Cared (start_cared program) ?_).nothingParked
  exact fun before event after cared inTime hs => cared.step inTime hs

/-- While the idle thread starts thread 2, handler 3 resumes it and finds the lock taken. -/
def deferral : List Event :=
  [.call (.start 2), .exec 0, .exec 0, .exec 0, .fire 3, .call (.resumeThread 2), .exec 0, .finish]

theorem nothingParked_deferred
    : let program : Program :=
        ⟨fun thread => .thread thread.toUInt8, fun _ => .interrupt 4, fun _ => .interrupt 1⟩
      -- the rest of the system call, up to thread 2
      let events : List Event := deferral ++ List.replicate 26 (.exec 0)
      (run (Machine.step 2) (Machine.start program) deferral).map
          (fun machine => machine.pending.isLinked (.thread 2)) = .ok true
      ∧ ∃ machine,
          run (Machine.step 2) (Machine.start program) events = .ok machine
          ∧ (machine.frames, machine.running, machine.raw.currentThread) = ([], [.user], 2)
          ∧ (∀ suspendable, machine.pending.isLinked suspendable = false)
          ∧ machine.raw.pendingRescheduleKind = RESCHEDULE_KIND_NONE := by
  intro program events
  refine ⟨rfl, ?_⟩
  obtain ⟨machine, ended⟩
      : ∃ machine, run (Machine.step 2) (Machine.start program) events = .ok machine := by
    unfold program events
    exact ⟨_, rfl⟩
  have final : (machine.frames, machine.running, machine.raw.currentThread) = ([], [.user], 2) :=
    view_of_ok
      (fun machine : Machine => (machine.frames, machine.running, machine.raw.currentThread)) ended
      (by unfold program events; rfl)
  have checked : allows (Machine.step 2) inTime (Machine.start program) events = true := by
    unfold program events
    rfl
  obtain ⟨alone, outside, -⟩ : machine.frames = [] ∧ machine.running = [.user] ∧ _ := by
    simpa using final
  obtain ⟨unlinked, -, -, none⟩ :=
    nothingParked_inTime (Reaches.run_allowed inTime .here checked ended) alone
      (by rw [outside]; rfl) (by rw [outside]; rfl)
  exact ⟨machine, ended, final, unlinked, none⟩

/-- The idle thread releases its section; handler 3 resumes thread 2 after the queues were
emptied and before the lock is free. The request stays parked.
-/
theorem resume_stays_parked
    : let program : Program :=
        ⟨fun thread => .thread thread.toUInt8, fun _ => .interrupt 4, fun _ => .interrupt 1⟩
      -- up to the `dropBorrow` of `complete_pending`
      let release : List Event := List.replicate 5 (.exec 0)
      let request : List Event := [.fire 3, .call (.resumeThread 2), .exec 0, .finish]
      -- the end of the interrupt, the unlocking store and the check
      let exit : List Event := List.replicate 6 (.exec 0)
      (run (Machine.step 2) (Machine.start program)
          (.call (.preemptLock true) :: .exec 0 :: .finish :: release ++ request ++ exit)).map
        (fun machine => (machine.frames, machine.running, machine.isPendingEmpty .resume))
      = .ok ([], [.user], false) := by
  rfl

end Scars.Machine
