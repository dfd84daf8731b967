import Scars.Foundation.Runs
import Scars.Kernel.Locks

/-! The operations a run of the kernel is made of.
Each is executed with the preemption lock held from start to end. Pending requests are
executed as operations of their own. Executor polls are only queued here: they are drained when an
interrupt context ends, outside of all operations.
-/

namespace Scars

/-- One call into the kernel. Lock operations are those of the running thread. -/
inductive Op where
  /-- `RawThread::start`. -/
  | start (thread : ThreadId)
  | resume (thread : ThreadId)
  | suspend (maybeThread : Option ThreadId)
  /-- One round of the wake-up loop: `wakeup_suspendable` on the head of the sleep queue. -/
  | wakeupNext
  | reschedule (kind : Nat) (now : Instant)
  | executePendingReschedule (now : Instant)
  /-- `wakeup_scheduler_isr`, the timer interrupt. -/
  | wakeupScheduler
  /-- `yield_current_thread_isr`. -/
  | yieldCurrentThread
  | delayUntil (wakeupTime : Instant)
  | wait (queue : WaitQueueId) (ceiling : Priority)
  | waitEvent (events : Events) (deadline : Option Instant)
  | lock (lock : LockId)
  | unlock (lock : LockId)
  | enterSection (ceiling : Priority)
  | leaveSection
  | condReschedule
  | notifyNext (queue : WaitQueueId)
  | sendEvents (thread : ThreadId) (events : Events)
  | scheduleInterruptWakeup (handler : HandlerId) (wakeupTime : Instant)
  | resumeInterrupt (handler : HandlerId)
  deriving DecidableEq, Repr

namespace Kernel

/-- The body of the wake-up loop of `reschedule`. -/
def wakeupNext (fuel : Nat) (kernel : Kernel) : Except Fault Kernel :=
  match kernel.sleepQueue with
  | [] => .ok kernel
  | head :: rest => { kernel with sleepQueue := rest }.wakeupSuspendable fuel head

def perform (fuel : Nat) (kernel : Kernel) : Op → Except Fault Kernel
  | .start thread => kernel.startThread thread
  | .resume thread => kernel.resumeThread thread
  | .suspend maybeThread => kernel.suspendThread maybeThread
  | .wakeupNext => kernel.wakeupNext fuel
  | .reschedule kind now => kernel.reschedule fuel kind now
  | .executePendingReschedule now => kernel.executePendingReschedule fuel now
  | .wakeupScheduler => .ok (kernel.setPendingReschedule RESCHEDULE_KIND_YIELD_TO_HIGHER)
  | .yieldCurrentThread =>
      .ok (kernel.setPendingReschedule
        (RESCHEDULE_KIND_YIELD_TO_EQUAL ||| RESCHEDULE_KIND_YIELD_TO_HIGHER))
  | .delayUntil wakeupTime => kernel.delayThreadUntil wakeupTime
  | .wait queue ceiling => kernel.waitCurrentThread queue ceiling
  | .waitEvent events deadline => do
      let (_, kernel) ← kernel.waitCurrentThreadEvent events deadline
      return kernel
  | .lock lock => kernel.lockScoped lock
  | .unlock lock => kernel.unlockScoped lock
  | .enterSection ceiling => .ok (kernel.enterSection ceiling)
  | .leaveSection => kernel.leaveSection
  | .condReschedule => .ok kernel.condReschedule
  | .notifyNext queue => kernel.notifyNext queue
  | .sendEvents thread events => kernel.sendEvents thread events
  | .scheduleInterruptWakeup handler wakeupTime =>
      (kernel.setDeadline (.interrupt handler) (some wakeupTime)).scheduleInterruptWakeup
        handler
  | .resumeInterrupt handler => kernel.resumeInterrupt fuel handler

/-- The kernels a program can reach by operations of the permitted kind. -/
def Reached (fuel : Nat) (program : Program) (permitted : Kernel → Op → Prop)
    : Kernel → Prop :=
  Runs.Reaches (perform fuel) permitted (Kernel.start program)

end Kernel

end Scars
