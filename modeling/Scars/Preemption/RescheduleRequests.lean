import Scars.Kernel.Moves
import Scars.Preemption.Contexts

/-! Which instructions ask for a reschedule.
A resumption does so for a thread that outranks what runs, and so do the timer, a yield and the
end of a lock. Everything else leaves `pending_reschedule_kind` alone.
-/

namespace Scars

open Runs Kernel

namespace Kernel

variable {kernel kernel' : Kernel} {thread : ThreadId}

/-- The thread is more urgent than the current one and all locks of the current one and of the
other blocked threads.
-/
def outranks (thread : ThreadId) (kernel : Kernel) : Bool :=
  let others :=
    if kernel.state thread = .blocked then
      { kernel with blockedList := kernel.blockedList.erase thread }
    else
      kernel
  decide ((kernel.priority kernel.currentThread).maxValid others.locksPriorityCeiling
    < kernel.priority thread)

theorem locksPriorityCeiling_of_eq (threads : kernel'.thread = kernel.thread)
    (current : kernel'.currentThread = kernel.currentThread)
    (blocked : kernel'.blockedList = kernel.blockedList)
    : kernel'.locksPriorityCeiling = kernel.locksPriorityCeiling := by
  unfold locksPriorityCeiling lockPriority
  rw [threads, current, blocked]

theorem insertToReadyQueue_blockedList (hi : kernel.insertToReadyQueue thread = .ok kernel')
    : kernel'.blockedList = kernel.blockedList := by
  rcases insertToReadyQueue_ok hi with ⟨-, rfl⟩ | ⟨-, -, rfl⟩ <;> rfl

theorem insertToReadyQueue_currentThread (hi : kernel.insertToReadyQueue thread = .ok kernel')
    : kernel'.currentThread = kernel.currentThread := by
  rcases insertToReadyQueue_ok hi with ⟨-, rfl⟩ | ⟨-, -, rfl⟩ <;> rfl

theorem requestIfHigher_of_le
    (notHigher
      : ¬ (kernel.priority kernel.currentThread).maxValid kernel.locksPriorityCeiling
          < kernel.priority thread)
    : kernel.requestIfHigher thread = kernel := by
  unfold requestIfHigher
  exact if_neg notHigher

/-- Only a thread that outranks what runs asks for a reschedule when it is resumed. -/
theorem resumeThread_kind (resumed : kernel.resumeThread thread = .ok kernel')
    (below : kernel.outranks thread = false)
    : kernel'.pendingRescheduleKind = kernel.pendingRescheduleKind := by
  obtain ⟨moved, requests, cases⟩ := resumeThread_ok resumed
  have moves : kernel.Moves moved ∧ moved.currentThread = kernel.currentThread
      ∧ moved.blockedList
        = if kernel.state thread = .blocked then kernel.blockedList.erase thread
          else kernel.blockedList := by
    rcases cases with ⟨blocked, -, hi⟩ | ⟨suspended, -, hi⟩ | ⟨started, hi⟩
      | ⟨state, rfl⟩
    · rw [insertToReadyQueue_blockedList hi, insertToReadyQueue_currentThread hi]
      have after := steady_moves.insertToReadyQueue hi
      rw [leaveSleepQueue_eq] at after ⊢
      refine ⟨Moves.trans ?_ after, rfl, by rw [if_pos blocked]; rfl⟩
      exact ⟨rfl, rfl, rfl, rfl, rfl⟩
    · rw [insertToReadyQueue_blockedList hi, insertToReadyQueue_currentThread hi]
      refine ⟨Moves.trans ?_ (steady_moves.insertToReadyQueue hi), rfl,
        by simp [suspended]; rfl⟩
      exact ⟨rfl, rfl, rfl, rfl, rfl⟩
    · rw [insertToReadyQueue_blockedList hi, insertToReadyQueue_currentThread hi]
      exact ⟨steady_moves.insertToReadyQueue hi, rfl, by simp [started]⟩
    · refine ⟨.refl moved, rfl, (if_neg fun blocked => ?_).symm⟩
      rw [blocked] at state
      simp at state
  obtain ⟨moves, current, blockedList⟩ := moves
  have notHigher
      : ¬ (moved.priority moved.currentThread).maxValid moved.locksPriorityCeiling
          < moved.priority thread := by
    unfold outranks at below
    dsimp only at below
    unfold priority at below ⊢
    rw [moves.thread, current]
    have ceiling : moved.locksPriorityCeiling
        = (if kernel.state thread = .blocked then
            { kernel with blockedList := kernel.blockedList.erase thread } else kernel
          : Kernel).locksPriorityCeiling := by
      split at blockedList
      next blocked =>
        rw [if_pos blocked]
        exact locksPriorityCeiling_of_eq moves.thread current blockedList
      next other =>
        rw [if_neg other]
        exact locksPriorityCeiling_of_eq moves.thread current blockedList
    rw [ceiling]
    exact of_decide_eq_false below
  rw [requests, requestIfHigher_of_le notHigher]
  exact moves.requested

theorem lockScoped_kind {lock : LockId} (locked : kernel.lockScoped lock = .ok kernel')
    : kernel'.pendingRescheduleKind = kernel.pendingRescheduleKind := by
  unfold lockScoped at locked
  dsimp only at locked
  split at locked
  · cases locked
  split at locked
  · cases locked
  split at locked
  · cases locked
  unfold acquireScopedLock at locked
  split at locked
  · split at locked
    · cases locked
    · cases locked
      exact setCeilingThreshold_kind _
  · cases locked

theorem popWaiter_kind (queue : WaitQueueId) (kernel : Kernel)
    : (kernel.popWaiter queue).2.pendingRescheduleKind = kernel.pendingRescheduleKind := by
  unfold popWaiter
  split <;> rfl

end Kernel

open Memory

variable {memory memory' : Memory} {fuel : Nat} {now : Instant} {more rest : List Instr}
  {context : ExecutionContext} {instr : Instr}

namespace Instr

/-- Whether the instruction asks for a reschedule. -/
def asks (kernel : Kernel) : Instr → Bool
  | .access (.setPendingReschedule _) => true
  | .locked (.run (.resumeThread thread)) => kernel.outranks thread
  | .locked (.complete .resume (.thread thread)) => kernel.outranks thread
  -- run by threads, whose own release looks for the request
  | .locked (.run (.releaseScopedLock _)) => true
  | .locked (.run .condReschedule) => true
  | _ => false

end Instr

theorem Access.perform_kind {access : Access}
    (hp : access.perform fuel memory = .ok (memory', more))
    (silent : (Instr.access access).asks memory.raw = false)
    : memory'.raw.pendingRescheduleKind = memory.raw.pendingRescheduleKind := by
  cases access.perform_step hp with
  | pops => exact popWaiter_kind _ memory.raw
  | requests => cases silent
  | adjusts _ _ kind => exact kind
  | _ => rfl

theorem Locked.perform_kind {op : Locked} (hp : op.perform fuel now memory = .ok (memory', more))
    (silent : (Instr.locked op).asks memory.raw = false)
    : memory'.raw.pendingRescheduleKind = memory.raw.pendingRescheduleKind := by
  cases op.perform_step hp with
  | resumes requested resumed =>
      rcases requested with rfl | rfl <;> exact resumeThread_kind resumed silent
  | resumesInterrupt resumed => exact (steady_moves.resumeInterrupt resumed).requested
  | schedules => exact (steady_moves.leaveSleepQueue _).requested
  | reschedulesSleep => exact (steady_moves.leaveSleepQueue _).requested
  | reschedules rescheduled =>
      exact (steady_moves.reschedule (fun _ _ => steady_moves.notes) rescheduled).requested
  | delays delayed => exact (steady_moves.delayThreadUntil delayed).requested
  | suspends suspended => exact (moves_suspendThread suspended).requested
  | handsOver => exact steady_moves.handOver.requested
  | locks locked => exact lockScoped_kind locked
  | unlocks => cases silent
  | condReschedules => cases silent
  | raises => exact setCeilingThreshold_kind _
  | inserts hi => exact (moves_insertToWaitQueue hi).requested
  | restores => exact setCeilingThreshold_kind _
  | blocks blocked => exact (steady_moves.blockThread blocked).requested
  | sleeps linked =>
      obtain ⟨-, rfl⟩ := insertSleeper_ok linked
      exact moves_reprogramAlarm.requested
  | reprograms => exact moves_reprogramAlarm.requested
  | blocksUnless blocks => exact (steady_moves.blockUnlessReceived blocks).requested
  | reads => rfl
  | asks => rfl
  | consumes => rfl

/-- The pending reschedule changes when an instruction asks for one, when it is executed, and
when its execution is refused.
-/
theorem Instr.perform_kind (hp : instr.perform fuel now context memory = .ok (memory', more))
    : memory'.raw.pendingRescheduleKind = memory.raw.pendingRescheduleKind
      ∨ instr.asks memory.raw = true
      ∨ memory'.raw.pendingRescheduleKind = RESCHEDULE_KIND_NONE
      ∨ ∃ kind,
          instr = .tryWith (.op (.reschedule kind))
          ∧ tryAcquireNestingLock memory.preemptLock context = none := by
  cases silent : instr.asks memory.raw with
  | true => exact Or.inr (Or.inl rfl)
  | false =>
      cases instr with
      | user => cases hp
      | access access => exact Or.inl (access.perform_kind hp silent)
      | tryWith body =>
          rcases Section.perform_ok hp with ⟨_, -, rfl, -⟩ | ⟨refused, deferred, rfl⟩
          · exact Or.inl rfl
          · rcases Section.refuse_cases deferred with ⟨_, _, _, -, -, rfl⟩ | ⟨kind, rfl, rfl⟩ | rfl
            · exact Or.inl rfl
            · exact Or.inr (Or.inr (Or.inr ⟨kind, rfl, refused⟩))
            · exact Or.inl rfl
      | borrowMut =>
          obtain ⟨rfl, rfl⟩ := Memory.borrowMut_ok hp
          exact Or.inl rfl
      | locked op => exact Or.inl (op.perform_kind hp silent)
      | drain queue =>
          obtain ⟨popped, pending, -, rfl, -⟩ := Memory.drain_ok hp
          exact Or.inl rfl
      | pollExecutor handler =>
          obtain ⟨rfl, -⟩ := setRaw_ok hp
          exact Or.inl (setCeilingThreshold_kind _)
      | pollPending =>
          obtain ⟨polls, rfl, -⟩ := Memory.pollPending_ok hp
          exact Or.inl rfl
      | swapPending => cases hp; exact Or.inr (Or.inr (Or.inl rfl))
      | _ => cases hp; exact Or.inl rfl

end Scars
