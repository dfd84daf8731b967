import Scars.Kernel.InterruptContext

/-! Interrupt handlers and executor polls on top of the current thread, with the locks of all of
them. Which interrupts the controller lets in is left open here. The lowest interrupt context ends
with the executor polls and the reschedule that were requested meanwhile.
-/

namespace Scars

open Runs OrderedInsert

/-- A handler on the stack, because of its interrupt or of a poll of its executor. -/
structure ActiveHandler where
  handler : HandlerId
  /-- The sections that were open when it began, with the one that a poll adds. -/
  sections : List CeilingSection
  polled : Bool

/-- The kernel and its locks, with the handlers that are active. -/
structure Nesting extends Locking where
  /-- Innermost first; each one runs on top of the next. -/
  active : List ActiveHandler
  /-- The lowest `interrupt_context` is done with its own work, and drains what is pending. -/
  draining : Bool

namespace Nesting

def start (program : Program) : Nesting where
  toLocking := Locking.start program
  active := []
  draining := false

/-- `Scheduler::current_execution_context`. A context that only drains is not counted. -/
def running (nesting : Nesting) : ExecutionContext :=
  match nesting.active with
  | [] => .thread nesting.currentThread
  | top :: _ => .interrupt top.handler

/-- The contexts on the stack, from the running one down to the current thread. -/
def stack (nesting : Nesting) : List ExecutionContext :=
  nesting.active.map (fun entry => .interrupt entry.handler) ++ [.thread nesting.currentThread]

/-- The calls of interrupt handlers and of their tasks that reach the scheduler. -/
def isRequest : Op → Bool
  | .resume _ => true
  | .wakeupScheduler => true
  | .notifyNext _ => true
  | .sendEvents _ _ => true
  | .scheduleInterruptWakeup _ _ => true
  | .resumeInterrupt _ => true
  | _ => false

inductive Event where
  /-- The current thread, or a system call it makes. -/
  | thread (op : Op)
  | interrupt (handler : HandlerId)
  /-- `SYSCALL_ID_POLL_INTERRUPT_EXECUTOR`. -/
  | pollSyscall (handler : HandlerId)
  /-- The next of `PENDING_INTERRUPT_EXECUTOR_POLLS`, which is this handler. -/
  | drain (handler : HandlerId)
  /-- A lock operation of the running handler. -/
  | handler (op : LockOp)
  | request (op : Op)
  /-- The running handler, or the poll, returns. -/
  | finish
  /-- `execute_pending_reschedule`, when no poll is pending. -/
  | reschedule (now : Instant)
  deriving DecidableEq, Repr

/-- An event of the locks, which leaves the stack as it is. -/
def within (nesting : Nesting) (outcome : Except Fault Locking) : Except Fault Nesting :=
  outcome.map fun locking => { nesting with toLocking := locking }

/-- `poll_executor` until its tasks are polled: the raised priority is one more section. -/
def beginPoll (handler : HandlerId) (nesting : Nesting) : Nesting :=
  let raised := nesting.enterSectionInInterrupt handler (nesting.handler handler).basePriority
  { nesting with
    toLocking := raised
    active := ⟨handler, raised.openSections handler, true⟩ :: nesting.active }

/-- The innermost context returns, with its own sections closed. A poll sets the priority back.
After the lowest one everything pending is drained.
-/
def endContext (top : ActiveHandler) (rest : List ActiveHandler) (nesting : Nesting)
    : Except Fault Nesting :=
  if nesting.openSections top.handler = top.sections then
    let ended := { nesting with active := rest, draining := nesting.draining || rest.isEmpty }
    if top.polled then ended.within (nesting.leaveSectionInInterrupt top.handler) else .ok ended
  else
    .error .notCallable

/-- The end of one round of the loop in `interrupt_context`. -/
def endRound (fuel : Nat) (now : Instant) (nesting : Nesting) : Except Fault Nesting := do
  let locking ← nesting.toLocking.perform fuel (.kernel (.executePendingReschedule now))
  return { nesting with toLocking := locking, draining := !(locking.polls.isEmpty ()).1 }

def step (fuel : Nat) (nesting : Nesting) : Event → Except Fault Nesting
  | .thread op =>
      if nesting.active = [] ∧ nesting.draining = false then
        nesting.within (nesting.toLocking.perform fuel (.kernel op))
      else
        .error .notCallable
  | .interrupt handler =>
      .ok { nesting with
        active := ⟨handler, nesting.openSections handler, false⟩ :: nesting.active }
  | .pollSyscall handler =>
      if nesting.active = [] ∧ nesting.draining = false then
        .ok { nesting.beginPoll handler with draining := true }
      else
        .error .notCallable
  | .drain handler =>
      if nesting.active = [] ∧ nesting.draining = true then do
        let locking ← nesting.takePoll fuel handler
        return { nesting with toLocking := locking }.beginPoll handler
      else
        .error .notCallable
  | .handler op =>
      match nesting.active with
      | [] => .error .notCallable
      | top :: _ => nesting.within (nesting.toLocking.perform fuel (.handler top.handler op))
  | .request op =>
      if nesting.active ≠ [] ∧ isRequest op then
        nesting.within (nesting.toLocking.perform fuel (.kernel op))
      else
        .error .notCallable
  | .finish =>
      match nesting.active with
      | [] => .error .notCallable
      | top :: rest => nesting.endContext top rest
  | .reschedule now =>
      if nesting.active = [] ∧ nesting.draining = true ∧ (nesting.polls.isEmpty ()).1 then
        nesting.endRound fuel now
      else
        .error .notCallable

/-- An event of the locks succeeded, and the stack is the same. -/
theorem within_ok {nesting nesting' : Nesting} {outcome : Except Fault Locking}
    (returned : nesting.within outcome = .ok nesting')
    : ∃ locking, outcome = .ok locking ∧ nesting' = { nesting with toLocking := locking } := by
  cases outcome with
  | error fault => cases returned
  | ok locking => exact ⟨locking, rfl, (Except.ok.inj returned).symm⟩

end Nesting

end Scars
