import Scars.Kernel.MutualExclusion
import Scars.Preemption.CodeShape

/-! The cases of an instruction that returns.
What an access or a step inside a section stores, and the code it goes on with, is listed once;
the later modules go through these lists.
-/

namespace Scars

variable {memory memory' : Memory} {fuel : Nat} {now : Instant} {more : List Instr}

namespace Memory

theorem setRaw_ok {raw : Kernel} {code : List Instr}
    (returned : memory.setRaw raw code = .ok (memory', more))
    : memory' = { memory with raw := raw } ∧ more = code := by
  cases returned
  exact ⟨rfl, rfl⟩

theorem withRaw_ok {outcome : Except Fault Kernel}
    (returned : memory.withRaw outcome = .ok (memory', more))
    : ∃ raw, outcome = .ok raw ∧ memory' = { memory with raw := raw } ∧ more = [] := by
  cases outcome with
  | error fault => cases returned
  | ok raw =>
      cases returned
      exact ⟨raw, rfl, rfl, rfl⟩

end Memory

open Memory

namespace Kernel

variable {kernel kernel' : Kernel}

@[simp]
theorem setCeilingThreshold_alarm (ceiling : PriorityStatus)
    : (kernel.setCeilingThreshold ceiling).alarm = kernel.alarm := by
  cases ceiling <;> rfl

@[simp]
theorem setCeilingThreshold_kind (ceiling : PriorityStatus)
    : (kernel.setCeilingThreshold ceiling).pendingRescheduleKind
      = kernel.pendingRescheduleKind := by
  cases ceiling <;> rfl

end Kernel

theorem markStarted_ok {kernel kernel' : Kernel} {thread : ThreadId}
    (marked : kernel.markStarted thread = .ok kernel')
    : kernel.state thread = .created ∧ kernel' = kernel.setState thread .started := by
  unfold Kernel.markStarted at marked
  split at marked
  · cases marked
  next created => cases marked; exact ⟨not_not.mp created, rfl⟩

/-- What the accesses do. -/
inductive AccessStep (memory : Memory) : Access → Memory → List Instr → Prop
  | sends {thread : ThreadId} {events : Events}
    : AccessStep memory (.sendEvents thread events)
        { memory with
          raw := memory.raw.setEvents thread ((memory.raw.events thread).sendFetchOr events).2 }
        [.access (.checkWaitedEvents thread ((memory.raw.events thread).sendFetchOr events).1)]
  | checks {thread : ThreadId} {sent : Events} {more : List Instr}
    (goesOn : more = [] ∨ more = resumeCode thread)
    : AccessStep memory (.checkWaitedEvents thread sent) memory more
  | pops {queue : WaitQueueId} {all : Bool}
    : AccessStep memory (.popWaiter queue all)
        { memory with raw := (memory.raw.popWaiter queue).2 }
        (notifyCode (memory.raw.popWaiter queue).1
          ++ if all && (memory.raw.popWaiter queue).1.isSome then
              [.access (.popWaiter queue all)]
            else
              [])
  | dates {handler : HandlerId} {wakeupTime : Instant}
    : AccessStep memory (.setDeadline handler wakeupTime)
        { memory with
          raw := memory.raw.setDeadline (.interrupt handler) (some wakeupTime) } []
  | requests {kind : Nat}
    : AccessStep memory (.setPendingReschedule kind)
        { memory with raw := memory.raw.setPendingReschedule kind } []
  | asksPoll {handler : HandlerId} {more : List Instr}
    (goesOn : more = [] ∨ more = [.access (.pushExecutorPoll handler)])
    : AccessStep memory (.setPendingExecutorPoll handler) memory more
  | polls {handler : HandlerId} {polls : QueueMemory Unit HandlerId}
    : AccessStep memory (.pushExecutorPoll handler)
        { memory with raw := { memory.raw with polls := polls } } []
  | adjusts {access : Access} {raw : Kernel} (adjusts : memory.raw.Adjusts raw)
    (alarm : raw.alarm = memory.raw.alarm)
    (kind : raw.pendingRescheduleKind = memory.raw.pendingRescheduleKind)
    : AccessStep memory access { memory with raw := raw } []
  | starts {thread : ThreadId} (created : memory.raw.state thread = .created)
    : AccessStep memory (.markStarted thread)
        { memory with raw := memory.raw.setState thread .started } []
  | loads {lock : LockId} {more : List Instr}
    (goesOn : more = [] ∨ more = [.tryWith (.op (.releaseScopedLock lock))])
    : AccessStep memory (.loadOwner lock) memory more
  | clears
    : AccessStep memory .clearWaitedEvents
        { memory with
          raw := memory.raw.setEvents memory.raw.currentThread
            (memory.raw.events memory.raw.currentThread).clearWaitedEvents } []
  | collects {events : Events} {timed : Bool}
    : AccessStep memory (.collectEvents events timed) (memory.collectEvents events timed) []
  | tries {events : Events} {result : ThreadId → Option WaitResult} {more : List Instr}
    (goesOn : more = [] ∨ more = waitEventsCode events.withoutFlag none)
    : AccessStep memory (.tryWaitEvents events) { memory with result := result } more

/-- Every access is one of these, by cases on the access. -/
theorem Access.perform_step {access : Access}
    (hp : access.perform fuel memory = .ok (memory', more))
    : AccessStep memory access memory' more := by
  cases access with
  | sendEvents thread events => cases hp; exact .sends
  | checkWaitedEvents thread sent =>
      cases hp
      refine .checks ?_
      split
      · exact Or.inr rfl
      · exact Or.inl rfl
  | popWaiter queue all => cases hp; exact .pops
  | setDeadline handler wakeupTime => cases hp; exact .dates
  | setPendingReschedule kind => cases hp; exact .requests
  | setPendingExecutorPoll handler =>
      cases hp
      refine .asksPoll ?_
      split
      · exact Or.inl rfl
      · exact Or.inr rfl
  | pushExecutorPoll handler =>
      obtain ⟨raw, pushed, rfl, rfl⟩ := withRaw_ok hp
      obtain ⟨polls, rfl⟩ := Kernel.pushExecutorPoll_ok pushed
      exact .polls
  | setHandlerNesting handler saved =>
      cases hp
      exact .adjusts (Kernel.adjusts_setHandlerPriorities handler _)
        (Kernel.setCeilingThreshold_alarm _) (Kernel.setCeilingThreshold_kind _)
  | markStarted thread =>
      obtain ⟨raw, marked, rfl, rfl⟩ := withRaw_ok hp
      obtain ⟨created, rfl⟩ := markStarted_ok marked
      exact .starts created
  | loadOwner lock =>
      unfold Access.perform at hp
      dsimp only at hp
      split at hp
      · cases hp; exact .loads (Or.inl rfl)
      · split at hp
        · cases hp
        · cases hp; exact .loads (Or.inr rfl)
  | enterSection ceiling =>
      cases hp
      exact .adjusts (Kernel.adjusts_enterSection ceiling) (Kernel.setCeilingThreshold_alarm _)
        (Kernel.setCeilingThreshold_kind _)
  | closeSection =>
      obtain ⟨raw, closed, rfl, rfl⟩ := withRaw_ok hp
      unfold Kernel.closeSection at closed
      dsimp only at closed
      split at closed
      · cases closed
      · cases closed
        exact .adjusts ((Kernel.adjusts_setThread _).trans (Kernel.adjusts_setLockPriorities _))
          (Kernel.setCeilingThreshold_alarm _) (Kernel.setCeilingThreshold_kind _)
  | clearWaitedEvents => cases hp; exact .clears
  | collectEvents events timed => cases hp; exact .collects
  | tryWaitEvents events =>
      have tried := Except.ok.inj hp
      unfold Memory.tryWaitEvents at tried
      dsimp only at tried
      split at tried
      · cases tried; exact .tries (Or.inr rfl)
      · cases tried; exact .tries (Or.inl rfl)

theorem insertSleeper_ok {kernel kernel' : Kernel} {handler : HandlerId}
    {deadline : Option Instant} (hi : kernel.insertSleeper handler deadline = .ok kernel')
    : .interrupt handler ∉ kernel.sleepQueue
      ∧ kernel' = { kernel with
        sleepQueue :=
          OrderedInsert.insertPast
            (fun hq => Kernel.deadlineLe (kernel.deadline hq) deadline)
            (.interrupt handler) kernel.sleepQueue } := by
  unfold Kernel.insertSleeper at hi
  split at hi
  · cases hi
  next absent =>
    refine ⟨?_, (Except.ok.inj hi).symm⟩
    simpa [Kernel.inSleepQueue] using absent

theorem insertWaiter_ok {waiter : ThreadId} {queue : WaitQueueId} {saved : PriorityStatus}
    (hp
      : (Locked.insertWaiter waiter queue saved).perform fuel now memory = .ok (memory', more))
    : ∃ raw,
        memory.raw.insertToWaitQueue queue (.thread waiter) = .ok raw
        ∧ memory' = { memory with raw := raw }
        ∧ more = [.locked (.restorePriority waiter saved)] := by
  unfold Locked.perform at hp
  dsimp only at hp
  cases hi : memory.raw.insertToWaitQueue queue (.thread waiter) with
  | error fault => rw [hi] at hp; cases hp
  | ok raw =>
      rw [hi] at hp
      cases hp
      exact ⟨raw, rfl, rfl, rfl⟩

/-- What the steps inside a section do. -/
inductive LockedStep (fuel : Nat) (now : Instant) (memory : Memory)
    : Locked → Memory → List Instr → Prop
  | resumes {op : Locked} {thread : ThreadId} {raw : Kernel}
    (requested : op = .run (.resumeThread thread) ∨ op = .complete .resume (.thread thread))
    (resumed : memory.raw.resumeThread thread = .ok raw)
    : LockedStep fuel now memory op { memory with raw := raw } []
  | resumesInterrupt {handler : HandlerId} {raw : Kernel}
    (resumed : memory.raw.resumeInterrupt fuel handler = .ok raw)
    : LockedStep fuel now memory (.complete .resume (.interrupt handler))
        { memory with raw := raw } []
  | schedules {handler : HandlerId}
    : LockedStep fuel now memory (.run (.scheduleInterruptWakeup handler))
        { memory with raw := memory.raw.leaveSleepQueue (.interrupt handler) }
        [.locked (.readDeadline handler)]
  | reschedulesSleep {handler : HandlerId}
    : LockedStep fuel now memory (.complete .sleep (.interrupt handler))
        { memory with raw := memory.raw.leaveSleepQueue (.interrupt handler) }
        [.locked (.readDeadline handler), .locked .reprogramAlarm]
  | reschedules {kind : Nat} {raw : Kernel}
    (rescheduled : memory.raw.reschedule fuel kind now = .ok raw)
    : LockedStep fuel now memory (.run (.reschedule kind)) { memory with raw := raw } []
  | delays {wakeupTime : Instant} {raw : Kernel}
    (delayed : memory.raw.delayThreadUntil wakeupTime = .ok raw)
    : LockedStep fuel now memory (.run (.delayThreadUntil wakeupTime)) { memory with raw := raw } []
  | suspends {maybeThread : Option ThreadId} {raw : Kernel}
    (suspended : memory.raw.suspendThread maybeThread = .ok raw)
    : LockedStep fuel now memory (.run (.suspendThread maybeThread)) { memory with raw := raw } []
  | handsOver {queue : WaitQueueId} {ceiling : Priority}
    (notIdle : memory.raw.currentThread ≠ IDLE_THREAD_ID)
    : LockedStep fuel now memory (.run (.waitCurrentThread queue ceiling))
        { memory with raw := memory.raw.handOver.2 }
        [.locked (.raisePriority memory.raw.handOver.1 queue ceiling)]
  | locks {lock : LockId} {raw : Kernel} (locked : memory.raw.lockScoped lock = .ok raw)
    : LockedStep fuel now memory (.run (.acquireScopedLock lock)) { memory with raw := raw } []
  | unlocks {lock : LockId} {raw : Kernel}
    (released : memory.raw.releaseScopedLock memory.raw.currentThread lock = .ok raw)
    : LockedStep fuel now memory (.run (.releaseScopedLock lock)) { memory with raw := raw } []
  | condReschedules
    : LockedStep fuel now memory (.run .condReschedule)
        { memory with raw := memory.raw.condReschedule } []
  | raises {waiter : ThreadId} {queue : WaitQueueId} {ceiling : Priority}
    : LockedStep fuel now memory (.raisePriority waiter queue ceiling)
        { memory with
          raw := (memory.raw.raiseHandlerNesting SYSCALL_INTERRUPT_HANDLER ceiling).2 }
        [.locked (.insertWaiter waiter queue
          (memory.raw.raiseHandlerNesting SYSCALL_INTERRUPT_HANDLER ceiling).1)]
  | inserts {waiter : ThreadId} {queue : WaitQueueId} {saved : PriorityStatus} {raw : Kernel}
    (inserted : memory.raw.insertToWaitQueue queue (.thread waiter) = .ok raw)
    : LockedStep fuel now memory (.insertWaiter waiter queue saved) { memory with raw := raw }
        [.locked (.restorePriority waiter saved)]
  | restores {waiter : ThreadId} {saved : PriorityStatus}
    : LockedStep fuel now memory (.restorePriority waiter saved)
        { memory with raw := memory.raw.setHandlerNesting SYSCALL_INTERRUPT_HANDLER saved }
        [.locked (.blockWaiter waiter)]
  | blocks {waiter : ThreadId} {raw : Kernel}
    (blocked : memory.raw.blockThread waiter none = .ok raw)
    : LockedStep fuel now memory (.blockWaiter waiter) { memory with raw := raw } []
  | reads {handler : HandlerId}
    : LockedStep fuel now memory (.readDeadline handler) memory
        [.locked (.insertSleeper handler (memory.raw.deadline (.interrupt handler)))]
  | sleeps {handler : HandlerId} {deadline : Option Instant} {kernel : Kernel}
    (linked : memory.raw.insertSleeper handler deadline = .ok kernel)
    : LockedStep fuel now memory (.insertSleeper handler deadline)
        { memory with raw := kernel.reprogramAlarm } []
  | reprograms
    : LockedStep fuel now memory .reprogramAlarm { memory with raw := memory.raw.reprogramAlarm } []
  | asks {events : Events}
    : LockedStep fuel now memory (.setWaitedEvents events)
        { memory with raw := memory.raw.setWaitedEvents events } []
  | consumes {events : Events}
    : LockedStep fuel now memory (.consumeEvents events)
        { memory with
          raw := (memory.raw.consumeEvents events).2
          received :=
            Function.update memory.received memory.raw.currentThread
              (memory.raw.consumeEvents events).1 } []
  | blocksUnless {events : Events} {deadline : Option Instant} {raw : Kernel}
    (blocks
      : memory.raw.blockUnlessReceived events deadline
          (memory.received memory.raw.currentThread) = .ok raw)
    : LockedStep fuel now memory (.blockUnlessReceived events deadline)
        { memory with raw := raw } []

theorem SectionOp.perform_step {op : SectionOp}
    (hp : op.perform fuel now memory = .ok (memory', more))
    : LockedStep fuel now memory (.run op) memory' more := by
  cases op with
  | resumeThread thread =>
      obtain ⟨raw, resumed, rfl, rfl⟩ := withRaw_ok hp
      exact .resumes (Or.inl rfl) resumed
  | scheduleInterruptWakeup handler => cases hp; exact .schedules
  | reschedule kind =>
      obtain ⟨raw, rescheduled, rfl, rfl⟩ := withRaw_ok hp
      exact .reschedules rescheduled
  | delayThreadUntil wakeupTime =>
      obtain ⟨raw, delayed, rfl, rfl⟩ := withRaw_ok hp
      exact .delays delayed
  | suspendThread maybeThread =>
      obtain ⟨raw, suspended, rfl, rfl⟩ := withRaw_ok hp
      exact .suspends suspended
  | waitCurrentThread queue ceiling =>
      unfold SectionOp.perform at hp
      dsimp only at hp
      split at hp
      · cases hp
      next notIdle => cases hp; exact .handsOver notIdle
  | acquireScopedLock lock =>
      obtain ⟨raw, locked, rfl, rfl⟩ := withRaw_ok hp
      exact .locks locked
  | releaseScopedLock lock =>
      obtain ⟨raw, released, rfl, rfl⟩ := withRaw_ok hp
      exact .unlocks released
  | condReschedule => cases hp; exact .condReschedules

/-- Every step inside a section is one of these, by cases on the step. -/
theorem Locked.perform_step {op : Locked} (hp : op.perform fuel now memory = .ok (memory', more))
    : LockedStep fuel now memory op memory' more := by
  cases op with
  | run op => exact op.perform_step hp
  | complete queue suspendable =>
      cases queue with
      | resume =>
          obtain ⟨raw, resumed, rfl, rfl⟩ := withRaw_ok hp
          cases suspendable with
          | thread thread => exact .resumes (Or.inr rfl) resumed
          | interrupt handler => exact .resumesInterrupt resumed
      | sleep =>
          cases suspendable with
          | thread thread => cases hp
          | interrupt handler => cases hp; exact .reschedulesSleep
  | raisePriority waiter queue ceiling => cases hp; exact .raises
  | insertWaiter waiter queue saved =>
      obtain ⟨raw, hi, rfl, rfl⟩ := insertWaiter_ok hp
      exact .inserts hi
  | restorePriority waiter saved => cases hp; exact .restores
  | blockWaiter waiter =>
      obtain ⟨raw, blocked, rfl, rfl⟩ := withRaw_ok hp
      exact .blocks blocked
  | readDeadline handler => cases hp; exact .reads
  | insertSleeper handler deadline =>
      obtain ⟨raw, hi, rfl, rfl⟩ := withRaw_ok hp
      obtain ⟨kernel, linked, rfl⟩ := Runs.map_ok.mp hi
      exact .sleeps linked
  | reprogramAlarm => cases hp; exact .reprograms
  | setWaitedEvents events =>
      unfold Locked.perform at hp
      dsimp only at hp
      split at hp
      · cases hp
      · cases hp; exact .asks
  | consumeEvents events => cases hp; exact .consumes
  | blockUnlessReceived events deadline =>
      obtain ⟨raw, blocks, rfl, rfl⟩ := withRaw_ok hp
      exact .blocksUnless blocks

variable {context : ExecutionContext} {queue : PendingQueue}

theorem Section.perform_ok {body : Section}
    (hp : body.perform fuel context memory = .ok (memory', more))
    : (∃ previous,
        tryAcquireNestingLock memory.preemptLock context = some previous
        ∧ memory' = { memory with preemptLock := some context }
        ∧ more = body.code ++ [.release ⟨context.isInterrupt, previous⟩])
      ∨ (tryAcquireNestingLock memory.preemptLock context = none
        ∧ body.refuse fuel memory = .ok memory' ∧ more = []) := by
  unfold Section.perform at hp
  split at hp
  · cases hp
  split at hp
  next previous acquired =>
    cases hp
    exact Or.inl ⟨previous, acquired, rfl, rfl⟩
  next refused =>
    cases deferred : body.refuse fuel memory with
    | error fault => rw [deferred] at hp; cases hp
    | ok after =>
        rw [deferred] at hp
        cases hp
        exact Or.inr ⟨refused, rfl, rfl⟩

theorem Memory.pushPending_ok {suspendable : Suspendable}
    (pushed : memory.pushPending fuel queue suspendable = .ok memory')
    : ∃ pending,
        memory.pending.pushBack fuel queue suspendable = .ok pending
        ∧ memory' = { memory with pending := pending } := by
  unfold Memory.pushPending Scheduler.pushPending at pushed
  split at pushed
  next pending linked => cases pushed; exact ⟨pending, linked, rfl⟩
  · cases pushed

/-- What the caller of a refused `try_with` puts into a pending queue. -/
def Section.defers : Section → Option (PendingQueue × Suspendable)
  | .op (.resumeThread thread) => some (.resume, .thread thread)
  | .op (.scheduleInterruptWakeup handler) => some (.sleep, .interrupt handler)
  | _ => none

/-- A refused section parks the request, requests a reschedule, or does nothing. -/
theorem Section.refuse_cases {body : Section} (refused : body.refuse fuel memory = .ok memory')
    : (∃ queue suspendable pending,
        body.defers = some (queue, suspendable)
        ∧ memory.pending.pushBack fuel queue suspendable = .ok pending
        ∧ memory' = { memory with pending := pending })
      ∨ (∃ kind,
        body = .op (.reschedule kind)
        ∧ memory' = { memory with raw := memory.raw.setPendingReschedule kind })
      ∨ memory' = memory := by
  cases body with
  | op method =>
      cases method with
      | resumeThread thread =>
          obtain ⟨pending, pushed, rfl⟩ := Memory.pushPending_ok refused
          exact Or.inl ⟨_, _, pending, rfl, pushed, rfl⟩
      | scheduleInterruptWakeup handler =>
          obtain ⟨pending, pushed, rfl⟩ := Memory.pushPending_ok refused
          exact Or.inl ⟨_, _, pending, rfl, pushed, rfl⟩
      | reschedule kind => cases refused; exact Or.inr (Or.inl ⟨kind, rfl, rfl⟩)
      | _ => cases refused
  | waitCurrentThreadEvent events deadline => cases refused
  | closure mayBlock => cases refused; exact Or.inr (Or.inr rfl)

theorem Memory.borrowMut_ok
    (hp : Instr.borrowMut.perform fuel now context memory = .ok (memory', more))
    : memory' = { memory with borrowed := true } ∧ more = [] := by
  unfold Instr.perform at hp
  dsimp only at hp
  split at hp
  · cases hp
  · cases hp; exact ⟨rfl, rfl⟩

theorem Memory.drain_ok (drained : memory.drain fuel queue = .ok (memory', more))
    : ∃ popped pending,
        memory.pending.popFront fuel queue = .ok (popped, pending)
        ∧ memory' = { memory with pending := pending }
        ∧ more = match popped with
          | none => []
          | some suspendable => [.locked (.complete queue suspendable), .drain queue] := by
  unfold Memory.drain Scheduler.popPending at drained
  split at drained
  next popped pending taken =>
    cases drained
    exact ⟨popped, pending, taken, rfl, rfl⟩
  · cases drained

theorem Memory.pollPending_ok (polled : memory.pollPending fuel = .ok (memory', more))
    : ∃ polls,
        memory' = { memory with raw := { memory.raw with polls := polls } }
        ∧ (more = [] ∨ ∃ handler, more = [.pollExecutor handler, .pollPending]) := by
  unfold Memory.pollPending at polled
  split at polled
  · cases polled
  next polls empty => cases polled; exact ⟨polls, rfl, Or.inl rfl⟩
  next handler polls taken => cases polled; exact ⟨polls, rfl, Or.inr ⟨handler, rfl⟩⟩

end Scars
