import Scars.Kernel.Wakes
import Scars.Preemption.OuterSteps

/-! What steps inside a section do to waiting threads.
A step resumes, wakes or switches threads, blocks one thread, or is an access of a wait to its
queue or to the event masks.
-/

namespace Scars

open Memory Runs Kernel

namespace Kernel

variable {kernel kernel' : Kernel} {thread : ThreadId}

/-- One thread becomes blocked; wait queues and masks stay. -/
structure Blocks (kernel kernel' : Kernel) (thread : ThreadId) : Prop where
  waitQueue : kernel'.waitQueue = kernel.waitQueue
  handlerDeadline
    : ∀ handler, kernel'.deadline (.interrupt handler) = kernel.deadline (.interrupt handler)
  state : kernel'.state = Function.update kernel.state thread .blocked
  events : kernel'.events = kernel.events

theorem blockThread_blocks {timeout : Option Instant}
    (blocked : kernel.blockThread thread timeout = .ok kernel')
    : kernel.Blocks kernel' thread := by
  obtain ⟨-, _, _, rfl⟩ := blockThread_ok blocked
  exact ⟨rfl, fun handler => by simp [setState, setDeadline], rfl, rfl⟩

theorem insertToWaitQueue_waits {queue : WaitQueueId} {suspendable : Suspendable}
    (hi : kernel.insertToWaitQueue queue suspendable = .ok kernel')
    : ∃ waitQueue waitOwner,
        kernel' = { kernel with waitQueue := waitQueue, waitOwner := waitOwner }
        ∧ suspendable ∈ waitQueue queue
        ∧ ∀ other, ∀ waiter ∈ kernel.waitQueue other, waiter ∈ waitQueue other := by
  unfold insertToWaitQueue at hi
  split at hi
  · cases hi
  · cases hi
    refine ⟨_, _, rfl, by simp, fun other waiter waits => ?_⟩
    by_cases he : other = queue
    · subst he
      simp [waits]
    · simpa [he] using waits

end Kernel

variable {memory memory' : Memory} {fuel : Nat} {now : Instant} {more : List Instr}

/-- The thread that a step may block. -/
def Locked.blocks (current : ThreadId) : Locked → Option ThreadId
  | .run (.delayThreadUntil _) => some current
  | .blockWaiter waiter => some waiter
  | .blockUnlessReceived _ _ => some current
  | _ => none

/-- The effect of a step on those who wait. -/
inductive LockedEffect (memory memory' : Memory) : Locked → Prop
  | wakes {op : Locked} (wakes : memory.raw.Wakes memory'.raw)
    (received : memory'.received = memory.received)
    : LockedEffect memory memory' op
  | blocks {op : Locked} {thread : ThreadId} {switched : Kernel}
    (wakes : memory.raw.Wakes switched) (blocks : switched.Blocks memory'.raw thread)
    (blocking : op.blocks memory.raw.currentThread = some thread)
    (received : memory'.received = memory.received)
    : LockedEffect memory memory' op
  | waits {waiter : ThreadId} {queue : WaitQueueId} {saved : PriorityStatus}
    (inserted : memory.raw.insertToWaitQueue queue (.thread waiter) = .ok memory'.raw)
    (received : memory'.received = memory.received)
    : LockedEffect memory memory' (.insertWaiter waiter queue saved)
  | asks {events : Events} (raw : memory'.raw = memory.raw.setWaitedEvents events)
    (received : memory'.received = memory.received)
    : LockedEffect memory memory' (.setWaitedEvents events)
  | consumes {events : Events} (raw : memory'.raw = (memory.raw.consumeEvents events).2)
    (received
      : memory'.received
        = Function.update memory.received memory.raw.currentThread
          (memory.raw.consumeEvents events).1)
    : LockedEffect memory memory' (.consumeEvents events)

/-- Every step inside a section has one of these effects, by cases on what it does. -/
theorem Locked.perform_effect {op : Locked} (hp : op.perform fuel now memory = .ok (memory', more))
    : LockedEffect memory memory' op := by
  cases op.perform_step hp with
  | resumes _ resumed =>
      exact .wakes
        (routine_wakes.resumeThread (fun _ => adjusts_requestIfHigher.wakes) resumed)
        rfl
  | resumesInterrupt resumed => exact .wakes (routine_wakes.resumeInterrupt resumed) rfl
  | schedules => exact .wakes (routine_wakes.leaveSleepQueue _) rfl
  | reschedulesSleep => exact .wakes (routine_wakes.leaveSleepQueue _) rfl
  | reschedules rescheduled =>
      have alarms (kernel : Kernel) (alarm : Option Instant) : kernel.Wakes { kernel with alarm } :=
        .of_eq rfl
      exact .wakes (routine_wakes.reschedule alarms rescheduled) rfl
  | delays delayed =>
      obtain ⟨-, blocked⟩ := delayThreadUntil_ok delayed
      exact .blocks routine_wakes.handOver (blockThread_blocks blocked) rfl rfl
  | suspends suspended =>
      exact .wakes (routine_wakes.suspendThread wakes_insertToSuspendedList suspended)
        rfl
  | handsOver => exact .wakes routine_wakes.handOver rfl
  | locks locked => exact .wakes (adjusts_lockScoped locked).wakes rfl
  | unlocks released => exact .wakes (adjusts_releaseScopedLock released).wakes rfl
  | condReschedules => exact .wakes adjusts_condReschedule.wakes rfl
  | raises => exact .wakes (adjusts_setHandlerPriorities _ _).wakes rfl
  | inserts hi => exact .waits hi rfl
  | restores => exact .wakes (adjusts_setHandlerPriorities _ _).wakes rfl
  | blocks blocked => exact .blocks (.refl _) (blockThread_blocks blocked) rfl rfl
  | reads => exact .wakes (.refl _) rfl
  | sleeps linked =>
      obtain ⟨-, rfl⟩ := insertSleeper_ok linked
      refine .wakes (Kernel.Wakes.trans ?_ wakes_reprogramAlarm) rfl
      exact .of_eq rfl
  | reprograms => exact .wakes wakes_reprogramAlarm rfl
  | asks => exact .asks rfl rfl
  | consumes => exact .consumes rfl rfl
  | blocksUnless blocks =>
      rcases blockUnlessReceived_ok blocks with ⟨-, blocked⟩ | ⟨-, rfl⟩
      · exact .blocks routine_wakes.handOver (blockThread_blocks blocked) rfl rfl
      · exact .wakes (.refl _) rfl

theorem LockedEffect.handlerDeadline {op : Locked} (effect : LockedEffect memory memory' op)
    (handler : HandlerId)
    : memory'.raw.deadline (.interrupt handler) = memory.raw.deadline (.interrupt handler) := by
  cases effect with
  | wakes wakes _ => exact wakes.handlerDeadline handler
  | blocks wakes blocks _ _ =>
      exact (blocks.handlerDeadline handler).trans (wakes.handlerDeadline handler)
  | waits hi _ =>
      obtain ⟨_, _, he, -⟩ := insertToWaitQueue_waits hi
      rw [he]
  | asks raw _ => rw [raw]; rfl
  | consumes raw _ => rw [raw]; rfl

theorem Kernel.OuterEffect.handlerDeadline {kernel kernel' : Kernel} {instr : Instr}
    (effect : kernel.OuterEffect instr kernel') (handler : HandlerId)
    : kernel'.deadline (.interrupt handler) = kernel.deadline (.interrupt handler)
      ∨ ∃ wakeupTime,
          instr = .access (.setDeadline handler wakeupTime)
          ∧ kernel'.deadline (.interrupt handler) = some wakeupTime := by
  cases effect with
  | same lists _ => exact Or.inl (by rw [lists.deadline])
  | @deadline other wakeupTime =>
      by_cases he : handler = other
      · subst he
        exact Or.inr ⟨wakeupTime, rfl, by simp [setDeadline]⟩
      · exact Or.inl (by simp [setDeadline, he])
  | started _ => exact Or.inl rfl

/-- Only `schedule_interrupt_wakeup` writes the deadline of a handler. -/
theorem Instr.perform_handlerDeadline {instr : Instr} {context : ExecutionContext}
    (hp : instr.perform fuel now context memory = .ok (memory', more)) (handler : HandlerId)
    : memory'.raw.deadline (.interrupt handler) = memory.raw.deadline (.interrupt handler)
      ∨ ∃ wakeupTime,
          instr = .access (.setDeadline handler wakeupTime)
          ∧ memory'.raw.deadline (.interrupt handler) = some wakeupTime := by
  by_cases inside : ∃ op, instr = .locked op
  · obtain ⟨op, rfl⟩ := inside
    exact Or.inl ((op.perform_effect hp).handlerDeadline handler)
  · exact (Instr.perform_outerEffect hp (not_exists.mp inside)).handlerDeadline handler

end Scars
