import Scars.Preemption.Code

/-! What the instructions do to shared memory.
An instruction reads and writes memory and says which code the executing context goes on with
before the rest of its own.
-/

namespace Scars

open Function

/-- What a wait for events returned. -/
inductive WaitResult where
  | events (received : Events)
  /-- `WaitEventsUntilError::Timeout`. -/
  | timeout (received : Events)
  /-- `TryWaitEventsError::WouldBlock`. -/
  | wouldBlock
  deriving DecidableEq, Repr

structure Memory extends Scheduler where
  /-- `PREEMPT_LOCK`. -/
  preemptLock : Option ExecutionContext
  /-- The borrow flag of `Scheduler::raw`. -/
  borrowed : Bool
  /-- The events that the system call of a thread's wait returns. -/
  received : ThreadId → Events
  /-- The value that the last wait of a thread returned. -/
  result : ThreadId → Option WaitResult

namespace Kernel

/-- The store of `RawThread::start`. -/
def markStarted (thread : ThreadId) (kernel : Kernel) : Except Fault Kernel :=
  if kernel.state thread ≠ .created then
    .error .startedTwice
  else
    .ok (kernel.setState thread .started)

/-- The store of `set_nesting_lock_priority` at the end of a `CeilingLock::with` section. -/
def closeSection (kernel : Kernel) : Except Fault Kernel :=
  let current := kernel.currentThread
  let raw := kernel.thread current
  match raw.sections with
  | [] => .error .notCallable
  | innermost :: rest =>
      .ok (kernel.setThread current { raw with sections := rest }
        |>.setLockPriorities current (innermost.savedPriority, raw.lockPriorities.2))

/-- The insertion of `schedule_interrupt_wakeup`, by the deadline that was read before. -/
def insertSleeper (handler : HandlerId) (deadline : Option Instant) (kernel : Kernel)
    : Except Fault Kernel :=
  if kernel.inSleepQueue (.interrupt handler) then
    .error .alreadyInList
  else
    .ok { kernel with
      sleepQueue :=
        OrderedInsert.insertPast (fun queued => deadlineLe (kernel.deadline queued) deadline)
          (.interrupt handler) kernel.sleepQueue }

end Kernel

namespace Memory

def start (program : Program) : Memory where
  raw := Kernel.start program
  pending := .new
  preemptLock := none
  borrowed := false
  received := fun _ => 0
  result := fun _ => none

/-- An operation on the kernel alone. -/
def withRaw (memory : Memory) (outcome : Except Fault Kernel)
    : Except Fault (Memory × List Instr) :=
  outcome.map fun raw => ({ memory with raw := raw }, [])

/-- Another kernel, and what follows. -/
def setRaw (memory : Memory) (raw : Kernel) (more : List Instr)
    : Except Fault (Memory × List Instr) :=
  .ok ({ memory with raw := raw }, more)

/-- `push_back` on a pending queue, when the lock is refused. -/
def pushPending (fuel : Nat) (queue : PendingQueue) (suspendable : Suspendable) (memory : Memory)
    : Except Fault Memory :=
  (memory.toScheduler.pushPending fuel queue suspendable).map fun scheduler =>
    { memory with toScheduler := scheduler }

end Memory

/-- The return of a wait: `wait_events_until` fails when the wake-up event is among the
received events.
-/
def waitResult (timed : Bool) (received : Events) : WaitResult :=
  if timed && received &&& Events.SCHEDULER_WAKEUP_EVENT != 0 then
    .timeout received
  else
    .events received

namespace Memory

/-- The last part of `wait_events` and `wait_events_until`. -/
def collectEvents (events : Events) (timed : Bool) (memory : Memory) : Memory :=
  let current := memory.raw.currentThread
  let mask := if timed then events ||| Events.SCHEDULER_WAKEUP_EVENT else events
  let (more, set) := (memory.raw.events current).readAndClearMatchingSentEvents mask
  let received := memory.received current ||| more
  { memory with
    raw := memory.raw.setEvents current set
    received := update memory.received current 0
    result := update memory.result current (some (waitResult timed received)) }

/-- The decision of `try_wait_events`; `wait_events` is called without the flag. -/
def tryWaitEvents (events : Events) (memory : Memory) : Memory × List Instr :=
  let current := memory.raw.currentThread
  let sent := (memory.raw.events current).sentEventsMask
  if EventSet.willNotBlock events.requireAll sent events.withoutFlag then
    (memory, waitEventsCode events.withoutFlag none)
  else
    ({ memory with result := update memory.result current (some .wouldBlock) }, [])

/-- What a notifier does with a waiter: threads are resumed, handlers are left alone. -/
def notifyCode : Option Suspendable → List Instr
  | some (.thread thread) => resumeCode thread
  | _ => []

end Memory

def Access.perform (fuel : Nat) (memory : Memory) : Access → Except Fault (Memory × List Instr)
  | .sendEvents thread events =>
      let (sent, set) := (memory.raw.events thread).sendFetchOr events
      memory.setRaw (memory.raw.setEvents thread set) [.access (.checkWaitedEvents thread sent)]
  | .checkWaitedEvents thread sent =>
      .ok (memory, if (memory.raw.events thread).sendCheck sent then resumeCode thread else [])
  | .popWaiter queue all =>
      let (popped, raw) := memory.raw.popWaiter queue
      memory.setRaw raw (Memory.notifyCode popped
        ++ if all && popped.isSome then [.access (.popWaiter queue all)] else [])
  | .setDeadline handler wakeupTime =>
      memory.setRaw (memory.raw.setDeadline (.interrupt handler) (some wakeupTime)) []
  | .setPendingReschedule kind => memory.setRaw (memory.raw.setPendingReschedule kind) []
  | .setPendingExecutorPoll handler =>
      .ok (memory,
        if memory.raw.polls.isLinked handler then [] else [.access (.pushExecutorPoll handler)])
  | .pushExecutorPoll handler => memory.withRaw (memory.raw.pushExecutorPoll fuel handler)
  | .setHandlerNesting handler saved =>
      memory.setRaw (memory.raw.setHandlerNesting handler saved) []
  | .markStarted thread => memory.withRaw (memory.raw.markStarted thread)
  | .loadOwner lock =>
      match (memory.raw.lock lock).owner with
      | none => .ok (memory, [])
      | some owner =>
          if owner ≠ memory.raw.currentThread then
            .error .lockOwnerViolation
          else
            .ok (memory, [.tryWith (.op (.releaseScopedLock lock))])
  | .enterSection ceiling => memory.setRaw (memory.raw.enterSection ceiling) []
  | .closeSection => memory.withRaw memory.raw.closeSection
  | .clearWaitedEvents =>
      let current := memory.raw.currentThread
      memory.setRaw (memory.raw.setEvents current (memory.raw.events current).clearWaitedEvents) []
  | .collectEvents events timed => .ok (memory.collectEvents events timed, [])
  | .tryWaitEvents events => .ok (memory.tryWaitEvents events)

def ExecutionContext.isInterrupt : ExecutionContext → Bool
  | .thread _ => false
  | .interrupt _ => true

/-- What the caller of a refused `try_with` does. -/
def Section.refuse (fuel : Nat) (memory : Memory) : Section → Except Fault Memory
  | .op (.resumeThread thread) => memory.pushPending fuel .resume (.thread thread)
  | .op (.scheduleInterruptWakeup handler) => memory.pushPending fuel .sleep (.interrupt handler)
  | .op (.reschedule kind) => .ok { memory with raw := memory.raw.setPendingReschedule kind }
  | .op (.delayThreadUntil _) => .error .sleepsWithPreemptLock
  | .op (.suspendThread _) => .error .suspendsWithPreemptLock
  | .op (.waitCurrentThread _ _) => .error .unreachable
  | .op _ => .error .interruptHandlerViolation
  | .waitCurrentThreadEvent _ _ => .error .unimplemented
  | .closure _ => .ok memory

/-- `PreemptLock::with` and `PreemptLock::try_with`, up to the body. -/
def Section.perform (fuel : Nat) (context : ExecutionContext) (memory : Memory) (body : Section)
    : Except Fault (Memory × List Instr) :=
  if body.mayBlock && context.isInterrupt then
    .error .interruptHandlerViolation
  else
    match tryAcquireNestingLock memory.preemptLock context with
    | some previous =>
        .ok ({ memory with preemptLock := some context },
          body.code ++ [.release { isInterrupt := context.isInterrupt, previous := previous }])
    | none => (body.refuse fuel memory).map fun memory => (memory, [])

/-- One round of a loop of `complete_pending`. -/
def Memory.drain (fuel : Nat) (queue : PendingQueue) (memory : Memory)
    : Except Fault (Memory × List Instr) :=
  (memory.toScheduler.popPending fuel queue).map fun (popped, scheduler) =>
    ({ memory with toScheduler := scheduler }, match popped with
      | none => []
      | some suspendable => [.locked (.complete queue suspendable), .drain queue])

/-- A method, at clock value `now`, or the first step of one that others may observe. -/
def SectionOp.perform (fuel : Nat) (now : Instant) (memory : Memory)
    : SectionOp → Except Fault (Memory × List Instr)
  | .resumeThread thread => memory.withRaw (memory.raw.resumeThread thread)
  | .scheduleInterruptWakeup handler =>
      memory.setRaw (memory.raw.leaveSleepQueue (.interrupt handler))
        [.locked (.readDeadline handler)]
  | .reschedule kind => memory.withRaw (memory.raw.reschedule fuel kind now)
  | .delayThreadUntil wakeupTime => memory.withRaw (memory.raw.delayThreadUntil wakeupTime)
  | .suspendThread maybeThread => memory.withRaw (memory.raw.suspendThread maybeThread)
  | .waitCurrentThread queue ceiling =>
      if memory.raw.currentThread = IDLE_THREAD_ID then
        .error .idleCannotBlock
      else
        let (waiter, raw) := memory.raw.handOver
        memory.setRaw raw [.locked (.raisePriority waiter queue ceiling)]
  | .acquireScopedLock lock => memory.withRaw (memory.raw.lockScoped lock)
  | .releaseScopedLock lock =>
      memory.withRaw (memory.raw.releaseScopedLock memory.raw.currentThread lock)
  | .condReschedule => memory.setRaw memory.raw.condReschedule []

/-- What `complete_pending` does with an item it popped. -/
def Memory.completePending (fuel : Nat) (memory : Memory)
    : PendingQueue → Suspendable → Except Fault (Memory × List Instr)
  | .resume, suspendable => memory.withRaw (memory.raw.resumeSuspendableNow fuel suspendable)
  | .sleep, .thread _ => .error .unimplemented
  | .sleep, .interrupt handler =>
      memory.setRaw (memory.raw.leaveSleepQueue (.interrupt handler))
        [.locked (.readDeadline handler), .locked .reprogramAlarm]

def Locked.perform (fuel : Nat) (now : Instant) (memory : Memory)
    : Locked → Except Fault (Memory × List Instr)
  | .run op => op.perform fuel now memory
  | .complete queue suspendable => memory.completePending fuel queue suspendable
  | .raisePriority waiter queue ceiling =>
      let (saved, raw) := memory.raw.raiseHandlerNesting SYSCALL_INTERRUPT_HANDLER ceiling
      memory.setRaw raw [.locked (.insertWaiter waiter queue saved)]
  | .insertWaiter waiter queue saved =>
      (memory.raw.insertToWaitQueue queue (.thread waiter)).map fun raw =>
        ({ memory with raw := raw }, [.locked (.restorePriority waiter saved)])
  | .restorePriority waiter saved =>
      memory.setRaw (memory.raw.setHandlerNesting SYSCALL_INTERRUPT_HANDLER saved)
        [.locked (.blockWaiter waiter)]
  | .blockWaiter waiter => memory.withRaw (memory.raw.blockThread waiter none)
  | .readDeadline handler =>
      .ok (memory, [.locked (.insertSleeper handler (memory.raw.deadline (.interrupt handler)))])
  | .insertSleeper handler deadline =>
      memory.withRaw ((memory.raw.insertSleeper handler deadline).map Kernel.reprogramAlarm)
  | .reprogramAlarm => memory.setRaw memory.raw.reprogramAlarm []
  | .setWaitedEvents events =>
      if memory.raw.currentThread = IDLE_THREAD_ID then
        .error .idleCannotBlock
      else
        memory.setRaw (memory.raw.setWaitedEvents events) []
  | .consumeEvents events =>
      let (received, raw) := memory.raw.consumeEvents events
      .ok ({ memory with
        raw := raw
        received := update memory.received memory.raw.currentThread received }, [])
  | .blockUnlessReceived events deadline =>
      memory.withRaw (memory.raw.blockUnlessReceived events deadline
        (memory.received memory.raw.currentThread))

namespace Memory

/-- `RawInterruptHandler::poll_executor`, up to its `interrupt_context`. -/
def pollExecutor (handler : HandlerId) (memory : Memory) : Except Fault (Memory × List Instr) :=
  let (saved, raw) :=
    memory.raw.raiseHandlerNesting handler (memory.raw.handler handler).basePriority
  memory.setRaw raw [.access (.setHandlerNesting handler saved)]

/-- One round of the loop over the pending polls. -/
def pollPending (fuel : Nat) (memory : Memory) : Except Fault (Memory × List Instr) :=
  match memory.raw.polls.popFront fuel () with
  | .error fault => .error (.queue fault)
  | .ok (none, polls) => memory.setRaw { memory.raw with polls := polls } []
  | .ok (some handler, polls) =>
      memory.setRaw { memory.raw with polls := polls } [.pollExecutor handler, .pollPending]

/-- `execute_pending_reschedule`, up to its `try_with`. -/
def swapPending (memory : Memory) : Memory × List Instr :=
  let kind := memory.raw.pendingRescheduleKind
  ({ memory with raw := { memory.raw with pendingRescheduleKind := RESCHEDULE_KIND_NONE } },
    if kind = RESCHEDULE_KIND_NONE then [] else [.tryWith (.op (.reschedule kind))])

def checkPolls (memory : Memory) : Memory × List Instr :=
  let (empty, polls) := memory.raw.polls.isEmpty ()
  ({ memory with raw := { memory.raw with polls := polls } },
    if empty then [] else interruptExit)

end Memory

/-- An instruction of `context`, at clock value `now`. -/
def Instr.perform (fuel : Nat) (now : Instant) (context : ExecutionContext) (memory : Memory)
    : Instr → Except Fault (Memory × List Instr)
  | .user => .error .notCallable
  | .access operation => operation.perform fuel memory
  | .tryWith body => body.perform fuel context memory
  | .borrowMut =>
      if memory.borrowed then
        .error .alreadyBorrowed
      else
        .ok ({ memory with borrowed := true }, [])
  | .locked op => op.perform fuel now memory
  | .drain queue => memory.drain fuel queue
  | .dropBorrow => .ok ({ memory with borrowed := false }, [])
  | .release restoreState => .ok (memory, releaseNestingLock restoreState)
  | .unlock isInterrupt =>
      -- only threads look for a pending reschedule
      .ok ({ memory with preemptLock := none }, if isInterrupt then [] else [.checkPending])
  | .checkPending =>
      .ok (memory,
        if memory.raw.pendingRescheduleKind ≠ RESCHEDULE_KIND_NONE then [.yieldPending] else [])
  | .yieldPending => .ok (memory, [])
  | .syscall _ => .ok (memory, [])
  | .endWait _ => .ok (memory, [])
  | .pollExecutor handler => memory.pollExecutor handler
  | .pollPending => memory.pollPending fuel
  | .swapPending => .ok memory.swapPending
  | .checkPolls => .ok memory.checkPolls

/-- The interrupt context that an instruction enters, with its body. -/
def Instr.enters : Instr → Option (HandlerId × List Instr)
  | .yieldPending => some (SYSCALL_INTERRUPT_HANDLER, Syscall.yield.code)
  | .syscall call => some (SYSCALL_INTERRUPT_HANDLER, call.code)
  | .pollExecutor handler => some (handler, [.user])
  | _ => none

end Scars
