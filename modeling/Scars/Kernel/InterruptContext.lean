import Scars.Kernel.ActivePriority

/-! `interrupt_context` entered from a thread, and the context switch that follows.
Raised priorities are restored to what the handler stored, and the interrupt threshold with them.
The processor saves the threshold only when it switches threads.
-/

namespace Scars

open Runs

/-- What a task does while an interrupt executor polls it. -/
inductive TaskWork where
  | lock (op : LockOp)
  /-- An operation of the scheduler, such as a resumption. -/
  | scheduler (op : Op)
  deriving DecidableEq, Repr

/-- What the kernel does in an `interrupt_context`. -/
inductive KernelWork where
  /-- A syscall, the timer, or the reschedule before the return. -/
  | scheduler (op : Op)
  /-- `SYSCALL_ID_POLL_INTERRUPT_EXECUTOR`. -/
  | poll (handler : HandlerId) (tasks : List TaskWork)
  /-- The next of `PENDING_INTERRUPT_EXECUTOR_POLLS`, which is this handler. -/
  | drain (handler : HandlerId) (tasks : List TaskWork)
  deriving DecidableEq, Repr

namespace Locking

/-- The thread is interrupted, so no lock operation is its own. -/
def performScheduler (fuel : Nat) (op : Op) (locking : Locking) : Except Fault Locking :=
  if threadLockOp op = none then locking.performInKernel fuel op else .error .notCallable

def performTask (fuel : Nat) (handler : HandlerId) (locking : Locking)
    : TaskWork → Except Fault Locking
  | .lock op => locking.performInInterrupt handler op
  | .scheduler op => locking.performScheduler fuel op

/-- `RawInterruptHandler::poll_executor`. The raised priority is one more section of the handler,
around those of its tasks, which they leave before they return.
-/
def pollExecutor (fuel : Nat) (handler : HandlerId) (tasks : List TaskWork) (locking : Locking)
    : Except Fault Locking := do
  let raised := locking.enterSectionInInterrupt handler (locking.handler handler).basePriority
  let polled ← run (performTask fuel handler) raised tasks
  if polled.openSections handler = raised.openSections handler then
    polled.leaveSectionInInterrupt handler
  else
    .error .notCallable

/-- `pop_front` of the pending polls. -/
def takePoll (fuel : Nat) (handler : HandlerId) (locking : Locking) : Except Fault Locking :=
  match locking.polls.popFront fuel () with
  | .ok (some popped, polls) =>
      if popped = handler then .ok { locking with toKernel := { locking.toKernel with polls } }
      else .error .notCallable
  | .ok (none, _) => .error .notCallable
  | .error fault => .error (.queue fault)

def work (fuel : Nat) (locking : Locking) : KernelWork → Except Fault Locking
  | .scheduler op => locking.performScheduler fuel op
  | .poll handler tasks => locking.pollExecutor fuel handler tasks
  | .drain handler tasks => do
      let locking ← locking.takePoll fuel handler
      locking.pollExecutor fuel handler tasks

/-- `interrupt_context`, by what it does until it returns. -/
def interruptContext (fuel : Nat) (works : List KernelWork) (locking : Locking)
    : Except Fault Locking :=
  run (work fuel) locking works

end Locking

/-- The processor, with the `basepri` that the context of each thread keeps. -/
structure Processor extends Locking where
  savedThreshold : ThreadId → UInt8

namespace Processor

/-- `_switch_context`, which does nothing when the interrupted thread goes on. -/
def switchContext (previous : ThreadId) (processor : Processor) : Processor :=
  if previous = processor.currentThread then processor
  else
    { processor with
      toKernel := { processor.toKernel with
        interruptThreshold := processor.savedThreshold processor.currentThread }
      savedThreshold :=
        Function.update processor.savedThreshold previous processor.interruptThreshold }

/-- A thread is interrupted or makes a syscall, until a thread runs again. -/
def enterKernel (fuel : Nat) (works : List KernelWork) (processor : Processor)
    : Except Fault Processor := do
  let locking ← processor.interruptContext fuel works
  return { processor with toLocking := locking }.switchContext processor.currentThread

end Processor

/-- The handler whose priority is raised and restored, if any. -/
def KernelWork.raises : KernelWork → Option HandlerId
  | .scheduler (.wait _ _) => some SYSCALL_INTERRUPT_HANDLER
  | .scheduler _ => none
  | .poll handler _ => some handler
  | .drain handler _ => some handler

/-- The last handler whose priority is raised and restored. -/
def lastRaised : List KernelWork → Option HandlerId
  | [] => none
  | work :: rest => (lastRaised rest).or work.raises

/-- What the tasks of a handler do. -/
def KernelWork.tasksOf (handler : HandlerId) : KernelWork → List TaskWork
  | .scheduler _ => []
  | .poll polled tasks => if polled = handler then tasks else []
  | .drain polled tasks => if polled = handler then tasks else []

/-- The scoped locks of a handler after a task did this. -/
def TaskWork.locksAfter (ceilingOf : LockId → Priority) (locks : List LockId)
    : TaskWork → List LockId
  | .lock (.lock taken) =>
      OrderedInsert.insertPast (fun held => decide (ceilingOf taken < ceilingOf held)) taken locks
  | .lock (.unlock released) => locks.erase released
  | _ => locks

namespace Locking

/-- The scoped locks that the tasks of a handler hold in the end. -/
def locksLeft (locking : Locking) (works : List KernelWork) (handler : HandlerId)
    : List LockId :=
  (works.flatMap (KernelWork.tasksOf handler)).foldl (TaskWork.locksAfter locking.ceilingOf)
    (locking.ownedLocks handler)

/-- The level of the stored nesting priority of a handler and of the locks its tasks keep. -/
def restoredLevel (locking : Locking) (works : List KernelWork) (handler : HandlerId) : UInt8 :=
  thresholdOf ((locking.handler handler).lockPriorities.1.max
    (LockAccount.ownedStatus locking.ceilingOf (locking.locksLeft works handler)))

/-- Either no priority is raised, or the level of the handler raised last is the threshold. -/
def restores (locking : Locking) (works : List KernelWork) : Bool :=
  match lastRaised works with
  | none => true
  | some handler => locking.restoredLevel works handler == locking.interruptThreshold

end Locking

end Scars
