import Scars.Kernel.Invariants

/-! What moving threads between the lists leaves alone.
Blocking, waking, suspending and switching touch neither locks and priorities nor the pending
reschedule. Only the wait for a condition raises a priority, and restores it.
-/

namespace Scars.Kernel

open Runs OrderedInsert Function

variable {kernel kernel' : Kernel} {thread : ThreadId} {suspendable : Suspendable}
  {deadline : Option Instant} {queue : WaitQueueId}

/-- Only lists, states, events, deadlines and the alarm changed. -/
structure Moves (kernel kernel' : Kernel) : Prop where
  thread : kernel'.thread = kernel.thread
  lock : kernel'.lock = kernel.lock
  handler : kernel'.handler = kernel.handler
  requested : kernel'.pendingRescheduleKind = kernel.pendingRescheduleKind
  threshold : kernel'.interruptThreshold = kernel.interruptThreshold

theorem Moves.refl (kernel : Kernel) : kernel.Moves kernel := ⟨rfl, rfl, rfl, rfl, rfl⟩

theorem Moves.trans {first second third : Kernel} (left : first.Moves second)
    (right : second.Moves third)
    : first.Moves third where
  thread := right.thread.trans left.thread
  lock := right.lock.trans left.lock
  handler := right.handler.trans left.handler
  requested := right.requested.trans left.requested
  threshold := right.threshold.trans left.threshold

theorem moves_insertToSuspendedList (hi : kernel.insertToSuspendedList thread = .ok kernel')
    : kernel.Moves kernel' := by
  obtain ⟨-, -, rfl⟩ := insertToSuspendedList_ok hi
  exact ⟨rfl, rfl, rfl, rfl, rfl⟩

theorem moves_reprogramAlarm : kernel.Moves kernel.reprogramAlarm := by
  unfold reprogramAlarm
  split <;> exact ⟨rfl, rfl, rfl, rfl, rfl⟩

theorem moves_insertToWaitQueue (hi : kernel.insertToWaitQueue queue suspendable = .ok kernel')
    : kernel.Moves kernel' := by
  unfold insertToWaitQueue at hi
  split at hi
  · cases hi
  · cases hi; exact ⟨rfl, rfl, rfl, rfl, rfl⟩

/-- Moving threads rewrites lists and states only. -/
theorem steady_moves : Steady Moves where
  refl := .refl
  trans := .trans
  readies _ _ _ hi := by
    rcases insertToReadyQueue_ok hi with ⟨-, rfl⟩ | ⟨-, -, rfl⟩ <;>
      exact ⟨rfl, rfl, rfl, rfl, rfl⟩
  pops _ := ⟨rfl, rfl, rfl, rfl, rfl⟩
  switches _ _ := ⟨rfl, rfl, rfl, rfl, rfl⟩
  sleeps _ := ⟨rfl, rfl, rfl, rfl, rfl⟩
  polls pushed := by
    obtain ⟨polls, rfl⟩ := setPendingExecutorPoll_ok pushed
    exact ⟨rfl, rfl, rfl, rfl, rfl⟩
  notes := ⟨rfl, rfl, rfl, rfl, rfl⟩
  starts _ := ⟨rfl, rfl, rfl, rfl, rfl⟩
  blocks := ⟨rfl, rfl, rfl, rfl, rfl⟩

theorem moves_suspendThread {maybeThread : Option ThreadId}
    (suspended : kernel.suspendThread maybeThread = .ok kernel')
    : kernel.Moves kernel' :=
  steady_moves.suspendThread moves_insertToSuspendedList suspended

@[simp]
theorem setCeilingThreshold_handler (ceiling : PriorityStatus)
    : (kernel.setCeilingThreshold ceiling).handler = kernel.handler := by
  cases ceiling <;> rfl

/-- Neither the records of the handlers nor the threshold changed. -/
def SameControls (kernel kernel' : Kernel) : Prop :=
  kernel'.handler = kernel.handler ∧ kernel'.interruptThreshold = kernel.interruptThreshold

theorem Moves.controls (moves : kernel.Moves kernel') : kernel.SameControls kernel' :=
  ⟨moves.handler, moves.threshold⟩

theorem steady_controls : Steady SameControls where
  refl _ := ⟨rfl, rfl⟩
  trans left right := ⟨right.1.trans left.1, right.2.trans left.2⟩
  readies signals blocked sleeping hi := (steady_moves.readies signals blocked sleeping hi).controls
  pops _ := ⟨rfl, rfl⟩
  switches _ _ := ⟨rfl, rfl⟩
  sleeps _ := ⟨rfl, rfl⟩
  polls pushed := (steady_moves.polls pushed).controls
  notes := ⟨rfl, rfl⟩
  starts _ := ⟨rfl, rfl⟩
  blocks := ⟨rfl, rfl⟩

theorem controls_condReschedule : kernel.SameControls kernel.condReschedule :=
  steady_controls.condReschedule fun _ _ => ⟨rfl, rfl⟩

theorem setLockPriorities_handler (priorities : PriorityStatus × PriorityStatus)
    : (kernel.setLockPriorities thread priorities).handler = kernel.handler := by
  simp [setLockPriorities, setThread]

theorem setHandlerPriorities_handler (handler : HandlerId)
    (priorities : PriorityStatus × PriorityStatus)
    : (kernel.setHandlerPriorities handler priorities).handler
      = update kernel.handler handler
          { kernel.handler handler with lockPriorities := priorities } := by
  simp [setHandlerPriorities]

/-- The syscall handler's nesting priority is raised for the insertion and then restored. -/
theorem waitCurrentThread_handler {ceiling : Priority}
    (waited : kernel.waitCurrentThread queue ceiling = .ok kernel')
    : kernel'.handler = kernel.handler := by
  obtain ⟨-, enqueued, hi, blocks⟩ := waitCurrentThread_ok waited
  have raised
      : ∃ nesting, enqueued.handler
          = update kernel.handler SYSCALL_INTERRUPT_HANDLER
              { kernel.handler SYSCALL_INTERRUPT_HANDLER with
                lockPriorities :=
                  (nesting, (kernel.handler SYSCALL_INTERRUPT_HANDLER).lockPriorities.2) } := by
    rw [(moves_insertToWaitQueue hi).handler]
    unfold raisedForWait raiseHandlerNesting
    dsimp only
    rw [setHandlerPriorities_handler, steady_moves.handOver.handler]
    exact ⟨_, rfl⟩
  obtain ⟨nesting, raised⟩ := raised
  rw [(steady_moves.blockThread blocks).handler]
  unfold setHandlerNesting
  dsimp only
  rw [setHandlerPriorities_handler, raised]
  simp only [update_self, update_idem, raisedForWait, raiseHandlerNesting,
    steady_moves.handOver.handler]
  exact update_eq_self _ _

theorem lockScoped_handler {lock : LockId} (locked : kernel.lockScoped lock = .ok kernel')
    : kernel'.handler = kernel.handler := by
  unfold lockScoped acquireScopedLock at locked
  dsimp only at locked
  split at locked
  · cases locked
  split at locked
  · cases locked
  split at locked
  · cases locked
  split at locked
  · split at locked
    · cases locked
    · cases locked
      exact setLockPriorities_handler _
  · cases locked

theorem unlockScoped_handler {lock : LockId} (unlocked : kernel.unlockScoped lock = .ok kernel')
    : kernel'.handler = kernel.handler := by
  unfold unlockScoped releaseScopedLock at unlocked
  split at unlocked
  · cases unlocked; rfl
  · split at unlocked
    · cases unlocked
    · split at unlocked
      · cases unlocked
        exact controls_condReschedule.1.trans (setLockPriorities_handler _)
      · cases unlocked

theorem leaveSection_handler (left : kernel.leaveSection = .ok kernel')
    : kernel'.handler = kernel.handler := by
  unfold leaveSection at left
  dsimp only at left
  split at left
  · cases left
  · cases left
    exact controls_condReschedule.1.trans (setLockPriorities_handler _)

/-- The operations other than those on locks and the wait leave the controls alone. -/
theorem controls_perform {fuel : Nat} {op : Op} (plain : ¬ChangesLocks op)
    (noWait : ∀ queue ceiling, op ≠ .wait queue ceiling) (hp : kernel.perform fuel op = .ok kernel')
    : kernel.SameControls kernel' := by
  cases op with
  | suspend maybeThread => exact (moves_suspendThread hp).controls
  | notifyNext queue =>
      obtain ⟨waitQueue, waitOwner, rfl | ⟨thread, resumed⟩⟩ := notifyNext_ok hp
      · exact ⟨rfl, rfl⟩
      · have he := steady_controls.resumeThread (fun _ _ => ⟨rfl, rfl⟩) resumed
        exact he
  | wait queue ceiling => exact absurd rfl (noWait queue ceiling)
  | lock | unlock | enterSection | leaveSection => exact absurd True.intro plain
  | _ => exact steady_controls.perform (fun _ _ => ⟨rfl, rfl⟩) hp trivial

theorem perform_handler {fuel : Nat} {op : Op} (hp : kernel.perform fuel op = .ok kernel')
    : kernel'.handler = kernel.handler := by
  cases op with
  | wait queue ceiling => exact waitCurrentThread_handler hp
  | lock lock => exact lockScoped_handler hp
  | unlock lock => exact unlockScoped_handler hp
  | enterSection ceiling =>
      cases hp
      exact setLockPriorities_handler _
  | leaveSection => exact leaveSection_handler hp
  | _ => exact (controls_perform id (by simp) hp).1

end Scars.Kernel
