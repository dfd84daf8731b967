import Scars.Preemption.Instructions

/-! The code that instructions go on with.
Whatever an instruction reads, it goes on with one of a few pieces of code; invariants about the
code that contexts have left follow from this list.
-/

namespace Scars

open Memory

variable {memory memory' : Memory} {fuel : Nat} {now : Instant} {more : List Instr}
  {context : ExecutionContext} {instr : Instr}

/-- The code that an instruction may go on with, before the rest of its context's code. -/
inductive Continues : Instr → List Instr → Prop
  | nothing (instr : Instr) : Continues instr []
  -- senders and notifiers
  | sent {thread : ThreadId} {events : Events} (sentEvents : Events)
    : Continues (.access (.sendEvents thread events))
        [.access (.checkWaitedEvents thread sentEvents)]
  | checked {thread : ThreadId} {sentEvents : Events}
    : Continues (.access (.checkWaitedEvents thread sentEvents)) (resumeCode thread)
  | notified {queue : WaitQueueId} {all : Bool} (popped : Option Suspendable)
    : Continues (.access (.popWaiter queue all)) (notifyCode popped)
  | notifiesNext {queue : WaitQueueId} {all : Bool} (popped : Option Suspendable)
    : Continues (.access (.popWaiter queue all))
        (notifyCode popped ++ [.access (.popWaiter queue all)])
  | unlinked {handler : HandlerId}
    : Continues (.access (.setPendingExecutorPoll handler)) [.access (.pushExecutorPoll handler)]
  | owned {lock : LockId}
    : Continues (.access (.loadOwner lock)) [.tryWith (.op (.releaseScopedLock lock))]
  | tried {events : Events}
    : Continues (.access (.tryWaitEvents events)) (waitEventsCode events.withoutFlag none)
  -- sections
  | acquired (body : Section) (restoreState : RestoreState)
    : Continues (.tryWith body) (body.code ++ [.release restoreState])
  | completes (restoreState : RestoreState)
    : Continues (.release restoreState)
        [.borrowMut, .drain .resume, .drain .sleep, .dropBorrow,
          .unlock restoreState.isInterrupt]
  | drained (queue : PendingQueue) (suspendable : Suspendable)
    : Continues (.drain queue) [.locked (.complete queue suspendable), .drain queue]
  | unlocked : Continues (.unlock false) [.checkPending]
  | yields : Continues .checkPending [.yieldPending]
  -- steps inside a section
  | scheduled {handler : HandlerId}
    : Continues (.locked (.run (.scheduleInterruptWakeup handler)))
        [.locked (.readDeadline handler)]
  | rescheduled {handler : HandlerId}
    : Continues (.locked (.complete .sleep (.interrupt handler)))
        [.locked (.readDeadline handler), .locked .reprogramAlarm]
  | read {handler : HandlerId} (deadline : Option Instant)
    : Continues (.locked (.readDeadline handler)) [.locked (.insertSleeper handler deadline)]
  | waits {queue : WaitQueueId} {ceiling : Priority} (waiter : ThreadId)
    : Continues (.locked (.run (.waitCurrentThread queue ceiling)))
        [.locked (.raisePriority waiter queue ceiling)]
  | raised {waiter : ThreadId} {queue : WaitQueueId} {ceiling : Priority}
    (saved : PriorityStatus)
    : Continues (.locked (.raisePriority waiter queue ceiling))
        [.locked (.insertWaiter waiter queue saved)]
  | inserted {waiter : ThreadId} {queue : WaitQueueId} {saved : PriorityStatus}
    : Continues (.locked (.insertWaiter waiter queue saved))
        [.locked (.restorePriority waiter saved)]
  | restored {waiter : ThreadId} {saved : PriorityStatus}
    : Continues (.locked (.restorePriority waiter saved)) [.locked (.blockWaiter waiter)]
  -- the end of an interrupt
  | polls {handler : HandlerId} (saved : PriorityStatus)
    : Continues (.pollExecutor handler) [.access (.setHandlerNesting handler saved)]
  | pollsNext (handler : HandlerId)
    : Continues .pollPending [.pollExecutor handler, .pollPending]
  | reschedules (kind : Nat) : Continues .swapPending [.tryWith (.op (.reschedule kind))]
  | pollsAgain : Continues .checkPolls interruptExit

theorem Access.perform_continues {access : Access}
    (hp : access.perform fuel memory = .ok (memory', more))
    : Continues (.access access) more := by
  cases access.perform_step hp with
  | sends => exact .sent _
  | checks goesOn =>
      rcases goesOn with rfl | rfl
      · exact .nothing _
      · exact .checked
  | pops =>
      split
      · exact .notifiesNext _
      · rw [List.append_nil]
        exact .notified _
  | asksPoll goesOn =>
      rcases goesOn with rfl | rfl
      · exact .nothing _
      · exact .unlinked
  | loads goesOn =>
      rcases goesOn with rfl | rfl
      · exact .nothing _
      · exact .owned
  | tries goesOn =>
      rcases goesOn with rfl | rfl
      · exact .nothing _
      · exact .tried
  | _ => exact .nothing _

theorem Locked.perform_continues {op : Locked}
    (hp : op.perform fuel now memory = .ok (memory', more))
    : Continues (.locked op) more := by
  cases op.perform_step hp with
  | schedules => exact .scheduled
  | reschedulesSleep => exact .rescheduled
  | handsOver => exact .waits _
  | raises => exact .raised _
  | inserts => exact .inserted
  | restores => exact .restored
  | reads => exact .read _
  | _ => exact .nothing _

/-- Every instruction goes on with code of the list, by cases on the instruction. -/
theorem Instr.perform_continues (hp : instr.perform fuel now context memory = .ok (memory', more))
    : Continues instr more := by
  cases instr with
  | user => cases hp
  | access access => exact access.perform_continues hp
  | tryWith body =>
      rcases Section.perform_ok hp with ⟨previous, -, -, rfl⟩ | ⟨-, -, rfl⟩
      · exact .acquired body _
      · exact .nothing _
  | borrowMut =>
      obtain ⟨rfl, rfl⟩ := Memory.borrowMut_ok hp
      exact .nothing _
  | locked op => exact op.perform_continues hp
  | drain queue =>
      obtain ⟨popped, pending, -, -, rfl⟩ := Memory.drain_ok hp
      cases popped with
      | none => exact .nothing _
      | some suspendable => exact .drained queue suspendable
  | release restoreState =>
      cases hp
      unfold releaseNestingLock
      split
      · exact .completes restoreState
      · exact .nothing _
  | unlock isInterrupt =>
      cases hp
      cases isInterrupt with
      | true => exact .nothing _
      | false => exact .unlocked
  | checkPending =>
      cases hp
      split
      · exact .yields
      · exact .nothing _
  | pollExecutor handler => cases hp; exact .polls _
  | pollPending =>
      obtain ⟨polls, -, rfl | ⟨handler, rfl⟩⟩ := Memory.pollPending_ok hp
      · exact .nothing _
      · exact .pollsNext handler
  | swapPending =>
      cases hp
      split
      · exact .nothing _
      · exact .reschedules _
  | checkPolls =>
      cases hp
      split
      · exact .nothing _
      · exact .pollsAgain
  | _ => cases hp; exact .nothing _

end Scars
