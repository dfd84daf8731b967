import Scars.Preemption.OuterWaits
import Scars.Preemption.ResumeRequests
import Scars.Preemption.ServedThreads

/-! Threads inside `thread_wait`, at every instruction.
A waiter is in the wait queue before it is blocked. A notifier that takes it off makes a request
to resume it, and while the lock is held such a request is parked; so the request is still under
way when the waiter becomes blocked.
-/

namespace Scars

open Memory Runs Kernel ThreadExecutionState

variable {memory memory' : Memory} {fuel : Nat} {now : Instant} {more rest : List Instr}
  {context : ExecutionContext} {instr : Instr} {thread : ThreadId} {kernel kernel' : Kernel}
  {kind : ThreadExecutionState → Prop}

/-- Only the suspension of a thread can lead into a state of the kind. -/
theorem Locked.perform_leaves {op : Locked} (passing : Passing kind)
    (apart : kind .suspended → ∀ maybeThread, op ≠ .run (.suspendThread maybeThread))
    (hp : op.perform fuel now memory = .ok (memory', more))
    : memory.raw.Leaves kind memory'.raw := by
  have steady := steady_leaves passing
  cases op.perform_step hp with
  | resumes _ resumed => exact steady.resumeThread (fun _ _ => .of_eq rfl) resumed
  | resumesInterrupt resumed => exact steady.resumeInterrupt resumed
  | schedules => exact steady.leaveSleepQueue _
  | reschedulesSleep => exact steady.leaveSleepQueue _
  | reschedules rescheduled => exact steady.reschedule (fun _ _ => steady.notes) rescheduled
  | delays delayed => exact steady.delayThreadUntil delayed
  | suspends suspended =>
      exact steady.suspendThread
        (leaves_insertToSuspendedList fun found => apart found _ rfl) suspended
  | handsOver => exact steady.handOver
  | locks locked => exact (adjusts_lockScoped locked).sameLists.leaves
  | unlocks released => exact (adjusts_releaseScopedLock released).sameLists.leaves
  | condReschedules => exact adjusts_condReschedule.sameLists.leaves
  | raises => exact (adjusts_setHandlerPriorities _ _).sameLists.leaves
  | inserts hi => exact (sameLists_insertToWaitQueue hi).leaves
  | restores => exact (adjusts_setHandlerPriorities _ _).sameLists.leaves
  | blocks blocked => exact steady.blockThread blocked
  | sleeps linked =>
      obtain ⟨-, rfl⟩ := insertSleeper_ok linked
      exact Leaves.trans (.of_eq rfl) sameLists_reprogramAlarm.leaves
  | reprograms => exact sameLists_reprogramAlarm.leaves
  | blocksUnless blocks => exact steady.blockUnlessReceived blocks
  | _ => exact .of_eq rfl

theorem Kernel.OuterEffect.leaves (passing : Passing kind)
    (effect : kernel.OuterEffect instr kernel')
    : kernel.Leaves kind kernel' := by
  cases effect with
  | same lists _ => exact lists.leaves
  | deadline => exact .of_eq rfl
  | started created => exact (steady_leaves passing).starts created

theorem Instr.perform_leaves (passing : Passing kind)
    (apart
      : kind .suspended → ∀ maybeThread, instr ≠ .locked (.run (.suspendThread maybeThread)))
    (hp : instr.perform fuel now context memory = .ok (memory', more))
    : memory.raw.Leaves kind memory'.raw := by
  by_cases inside : ∃ op, instr = .locked op
  · obtain ⟨op, rfl⟩ := inside
    exact op.perform_leaves passing (by simpa using apart) hp
  · exact (Instr.perform_outerEffect hp (not_exists.mp inside)).leaves passing

theorem Kernel.OuterEffect.blocked (effect : kernel.OuterEffect instr kernel')
    (blocked : kernel'.state thread = .blocked)
    : kernel.state thread = .blocked := by
  cases effect with
  | same lists _ => exact lists.state ▸ blocked
  | deadline => exact blocked
  | @started marked created =>
      by_cases he : thread = marked
      · subst he
        simp [setState] at blocked
      · simpa [setState, he] using blocked

theorem Instr.perform_blocked (hp : instr.perform fuel now context memory = .ok (memory', more))
    (blocked : memory'.raw.state thread = .blocked)
    : memory.raw.state thread = .blocked
      ∨ ∃ op, instr = .locked op ∧ op.blocks memory.raw.currentThread = some thread := by
  by_cases inside : ∃ op, instr = .locked op
  · obtain ⟨op, rfl⟩ := inside
    cases op.perform_effect hp with
    | wakes wakes _ => exact Or.inl (wakes.blocked thread blocked).1
    | @blocks _ other switched wakes blocks blocking _ =>
        rw [blocks.state] at blocked
        by_cases he : thread = other
        · subst he
          exact Or.inr ⟨op, rfl, blocking⟩
        · rw [Function.update_of_ne he] at blocked
          exact Or.inl (wakes.blocked thread blocked).1
    | waits hi _ =>
        obtain ⟨_, _, he, -⟩ := insertToWaitQueue_waits hi
        rw [he] at blocked
        exact Or.inl blocked
    | asks raw _ => rw [raw] at blocked; exact Or.inl blocked
    | consumes raw _ => rw [raw] at blocked; exact Or.inl blocked
  · exact Or.inl ((Instr.perform_outerEffect hp (not_exists.mp inside)).blocked blocked)

namespace Machine

variable {machine machine' : Machine} {program : Program} {code : List Instr} {event : Event}

theorem Settled.current_running (settled : machine.Settled)
    : machine.raw.state machine.raw.currentThread = .running := by
  obtain ⟨moving, listed, -⟩ := settled.listed
  cases moving with
  | none => exact (listed.running _).mpr rfl
  | some moving => exact (listed.1.running _ (Ne.symm listed.1.notCurrent)).mpr rfl

/-- The step executes `suspend_thread`. -/
def Suspends (machine : Machine) (event : Event) : Prop :=
  ∃ now maybeThread rest,
    event = .exec now ∧ machine.running = .locked (.run (.suspendThread maybeThread)) :: rest

/-- The same for a step of the machine. -/
theorem leaves_step (passing : Passing kind) (apart : kind .suspended → ¬ machine.Suspends event)
    (hs : machine.step fuel event = .ok machine')
    : machine.raw.Leaves kind machine'.raw := by
  rcases memory_step hs with he | ⟨now, instr, rest, more, rfl, hrun, hp⟩
  · rw [he]
    exact .of_eq rfl
  · refine Instr.perform_leaves passing (fun found maybeThread he => ?_) hp
    exact apart found ⟨now, maybeThread, rest, rfl, he ▸ hrun⟩

/-- Threads are suspended by `suspend_thread` only. -/
theorem ne_suspended_of_reaches
    (reached
      : Reaches (Machine.step fuel) (fun machine event => ¬ machine.Suspends event)
          (Machine.start program) machine)
    : ∀ thread, machine.raw.state thread ≠ .suspended := by
  refine reached.invariant (fun machine => ∀ thread, machine.raw.state thread ≠ .suspended) ?_ ?_
  · intro thread
    simp only [Machine.start, Memory.start, Kernel.start]
    split <;> simp
  · intro machine event machine' before apart hs thread found
    exact before thread (leaves_step passing_suspended (fun _ => apart) hs thread found)

theorem blocked_step (hs : machine.step fuel event = .ok machine')
    (blocked : machine'.raw.state thread = .blocked)
    : machine.raw.state thread = .blocked
      ∨ ∃ op rest,
          machine.running = .locked op :: rest
          ∧ op.blocks machine.raw.currentThread = some thread := by
  rcases memory_step hs with he | ⟨now, instr, rest, more, -, hrun, hp⟩
  · exact Or.inl (by rwa [he] at blocked)
  · refine (Instr.perform_blocked hp blocked).imp_right ?_
    rintro ⟨op, rfl, blocking⟩
    exact ⟨op, rest, hrun, blocking⟩

/-- A notifier reaches the thread, or one already has: it is in the queue, or a request to
resume it is under way.
-/
def Notifiable (machine : Machine) (thread : ThreadId) (queue : WaitQueueId) : Prop :=
  .thread thread ∈ machine.raw.waitQueue queue ∨ machine.ResumePending thread

theorem Notifiable.step {queue : WaitQueueId} (notifiable : machine.Notifiable thread queue)
    (hx : machine.Exclusive) (intact : machine.Intact) (fifo : machine.PushesFifo fuel event)
    (hs : machine.step fuel event = .ok machine')
    : machine'.Notifiable thread queue
      ∨ machine.Resumes event thread ∧ machine'.raw.state thread ≠ .blocked := by
  rcases notifiable with linked | pending
  · left
    cases step_ok hs with
    | @instr now instr rest more memory hrun hp =>
        rcases Instr.perform_linked hp linked with stays | notifies
        · exact Or.inl (by rwa [toMemory_goOn])
        · have next := notifies _ (List.mem_singleton.mpr rfl)
          exact Or.inr (Or.inr ⟨_, (hx.hasCode_goOn hrun hp).mpr (Or.inl rfl), _,
            List.mem_append_left _ next, rfl⟩)
    | restore => exact Or.inl linked
    | call => exact Or.inl (by rwa [toMemory_setRunning])
    | finish => exact Or.inl (by rwa [toMemory_setRunning])
    | fire => exact Or.inl linked
  · exact (pending.step hx intact fifo hs).imp_left Or.inr

end Machine

end Scars
