import Scars.Kernel.Moves

/-! What resuming, waking and switching threads leave alone.
Wait queues and the deadlines of handlers stay as they are, and so do the masks of every thread
that stays blocked. A thread that is taken out of its wait may get a reserved event.
-/

namespace Scars

open Runs OrderedInsert Events

/-- The events that are only sent: those of the user, and the one of executors. -/
def Events.sendable : Events := Events.SCHEDULER_WAKEUP_EVENT - 1

/-- The bits of the scheduler do not show in the events that are sent. -/
theorem Events.and_sendable_of_reserved (events : Events) {bits : Events}
    (reserved : bits &&& sendable = 0)
    : (events ||| bits) &&& sendable = events &&& sendable := by
  rw [BitVec.and_or_distrib_right, reserved]
  exact BitVec.or_zero

namespace Kernel

variable {kernel kernel' : Kernel} {thread : ThreadId} {suspendable : Suspendable}

/-- No thread becomes blocked; whoever stays blocked has the same masks. -/
structure Wakes (kernel kernel' : Kernel) : Prop where
  waitQueue : kernel'.waitQueue = kernel.waitQueue
  handlerDeadline
    : ∀ handler, kernel'.deadline (.interrupt handler) = kernel.deadline (.interrupt handler)
  blocked
    : ∀ thread,
        kernel'.state thread = .blocked
        → kernel.state thread = .blocked ∧ kernel'.events thread = kernel.events thread
  waited
    : ∀ thread,
        (kernel'.events thread).waitedEventsMask = (kernel.events thread).waitedEventsMask
  sent
    : ∀ thread,
        (kernel'.events thread).sentEventsMask &&& sendable
        = (kernel.events thread).sentEventsMask &&& sendable

theorem Wakes.trans {first second third : Kernel} (left : first.Wakes second)
    (right : second.Wakes third)
    : first.Wakes third where
  waitQueue := right.waitQueue.trans left.waitQueue
  handlerDeadline handler := (right.handlerDeadline handler).trans (left.handlerDeadline handler)
  blocked thread blocked := by
    obtain ⟨stays, he⟩ := right.blocked thread blocked
    obtain ⟨before, kept⟩ := left.blocked thread stays
    exact ⟨before, he.trans kept⟩
  waited thread := (right.waited thread).trans (left.waited thread)
  sent thread := (right.sent thread).trans (left.sent thread)

theorem Wakes.of_eq
    (he
      : (kernel'.waitQueue, kernel'.deadline, kernel'.state, kernel'.events)
        = (kernel.waitQueue, kernel.deadline, kernel.state, kernel.events))
    : kernel.Wakes kernel' := by
  obtain ⟨waitQueue, deadline, state, events⟩ := by simpa only [Prod.mk.injEq] using he
  exact ⟨waitQueue, fun _ => by rw [deadline], fun _ blocked => ⟨state ▸ blocked, by rw [events]⟩,
    fun _ => by rw [events], fun _ => by rw [events]⟩

theorem Wakes.refl (kernel : Kernel) : kernel.Wakes kernel := .of_eq rfl

theorem wakes_setState (kernel : Kernel) (thread : ThreadId) (state : ThreadExecutionState)
    (awake : state ≠ .blocked)
    : kernel.Wakes (kernel.setState thread state) where
  waitQueue := rfl
  handlerDeadline _ := rfl
  blocked other blocked := by
    refine ⟨?_, rfl⟩
    by_cases he : other = thread
    · subst he
      simp [setState, awake] at blocked
    · simpa [setState, he] using blocked
  waited _ := rfl
  sent _ := rfl

theorem Adjusts.wakes (adjusts : kernel.Adjusts kernel') : kernel.Wakes kernel' := by
  obtain ⟨_, _, _, _, _, rfl⟩ := adjusts
  exact .of_eq rfl

theorem wakes_reprogramAlarm : kernel.Wakes kernel.reprogramAlarm := by
  rw [reprogramAlarm_eq]
  exact .of_eq rfl

theorem wakes_insertToReadyQueue (hi : kernel.insertToReadyQueue thread = .ok kernel')
    : kernel.Wakes kernel' := by
  rcases insertToReadyQueue_ok hi with ⟨-, rfl⟩ | ⟨-, -, rfl⟩
  · exact wakes_setState kernel thread .ready nofun
  · exact (wakes_setState kernel thread .ready nofun).trans (.of_eq rfl)

theorem insertToReadyQueue_ready (hi : kernel.insertToReadyQueue thread = .ok kernel')
    : kernel'.state thread = .ready := by
  rcases insertToReadyQueue_ok hi with ⟨-, rfl⟩ | ⟨-, -, rfl⟩ <;> simp [setState]

theorem wakes_insertToSuspendedList (hi : kernel.insertToSuspendedList thread = .ok kernel')
    : kernel.Wakes kernel' := by
  obtain ⟨-, -, rfl⟩ := insertToSuspendedList_ok hi
  exact (wakes_setState kernel thread .suspended nofun).trans (.of_eq rfl)

theorem Wakes.signalled {set : EventSet} (wakes : (kernel.setEvents thread set).Wakes kernel')
    (waited : set.waitedEventsMask = (kernel.events thread).waitedEventsMask)
    (sent
      : set.sentEventsMask &&& sendable
        = (kernel.events thread).sentEventsMask &&& sendable)
    (awake : kernel'.state thread ≠ .blocked)
    : kernel.Wakes kernel' where
  waitQueue := wakes.waitQueue
  handlerDeadline := wakes.handlerDeadline
  blocked other blocked := by
    have hne : other ≠ thread := fun he => awake (he ▸ blocked)
    obtain ⟨before, he⟩ := wakes.blocked other blocked
    exact ⟨before, by simpa [setEvents, hne] using he⟩
  waited other := by
    rw [wakes.waited other]
    by_cases he : other = thread
    · subst he
      simpa [setEvents] using waited
    · simp [setEvents, he]
  sent other := by
    rw [wakes.sent other]
    by_cases he : other = thread
    · subst he
      simpa [setEvents] using sent
    · simp [setEvents, he]

theorem sendable_setResumeEvent (set : EventSet)
    : set.setResumeEvent.sentEventsMask &&& sendable
      = set.sentEventsMask &&& sendable :=
  and_sendable_of_reserved set.sentEventsMask rfl

theorem sendable_setWakeupEvent (set : EventSet)
    : set.setWakeupEvent.sentEventsMask &&& sendable
      = set.sentEventsMask &&& sendable :=
  and_sendable_of_reserved set.sentEventsMask rfl

theorem routine_wakes : Routine Wakes where
  refl := .refl
  trans := .trans
  readies {kernel kernel' thread events _ _ _} signals _ _ hi := by
    have wakes : { kernel with events }.Wakes kernel' := by
      refine Wakes.trans ?_ (wakes_insertToReadyQueue hi)
      exact .of_eq rfl
    have awake : kernel'.state thread ≠ .blocked := by
      rw [insertToReadyQueue_ready hi]
      simp
    rcases signals with rfl | rfl | rfl
    · exact wakes
    · exact wakes.signalled rfl (sendable_setResumeEvent _) awake
    · exact wakes.signalled rfl (sendable_setWakeupEvent _) awake
  pops _ := .of_eq rfl
  switches kernel thread := by
    refine (wakes_setState kernel thread .running nofun).trans (Wakes.trans ?_
      (wakes_setState { kernel.setState thread .running with currentThread := thread }
        kernel.currentThread .ready nofun))
    exact .of_eq rfl
  sleeps _ := .of_eq rfl
  polls pushed := by
    obtain ⟨polls, rfl⟩ := setPendingExecutorPoll_ok pushed
    exact .of_eq rfl

theorem resumeThread_awake (resumed : kernel.resumeThread thread = .ok kernel')
    : kernel'.state thread ≠ .blocked := by
  obtain ⟨moved, rfl, moves⟩ := resumeThread_ok resumed
  rw [adjusts_requestIfHigher.sameLists.state]
  rcases moves with ⟨-, -, hi⟩ | ⟨-, -, hi⟩ | ⟨-, hi⟩ | ⟨state, rfl⟩
  · rw [insertToReadyQueue_ready hi]; simp
  · rw [insertToReadyQueue_ready hi]; simp
  · rw [insertToReadyQueue_ready hi]; simp
  · intro blocked
    simp [blocked] at state

end Kernel

end Scars
