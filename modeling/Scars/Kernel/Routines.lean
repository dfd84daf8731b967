import Scars.Kernel.Effects
import Scars.Kernel.Operations

/-! Relations between kernels that the moves of threads keep.
Waking, resuming, suspending and switching threads are made of a few moves; a relation that each
of them keeps is kept by all these methods.
-/

namespace Scars.Kernel

open Runs OrderedInsert

/-- The scheduler signals the thread why it is taken out of its wait, or does not. -/
def Signals (thread : ThreadId) (before after : ThreadId → EventSet) : Prop :=
  after = before
  ∨ after = Function.update before thread (before thread).setResumeEvent
  ∨ after = Function.update before thread (before thread).setWakeupEvent

/-- The relation is kept by the moves of threads, and can be chained. -/
structure Routine (relates : Kernel → Kernel → Prop) : Prop where
  refl : ∀ kernel, relates kernel kernel
  trans : ∀ {first second third}, relates first second → relates second third → relates first third
  /-- A thread leaves the lists that it is in and becomes ready. -/
  readies
    : ∀ {kernel kernel' : Kernel} {thread events blockedList suspendedList sleepQueue},
        Signals thread kernel.events events
        → blockedList.Sublist kernel.blockedList
        → sleepQueue.Sublist kernel.sleepQueue
        → insertToReadyQueue thread { kernel with events, blockedList, suspendedList, sleepQueue }
          = .ok kernel'
        → relates kernel kernel'
  pops
    : ∀ {kernel : Kernel} {readyQueue},
        readyQueue.Sublist kernel.readyQueue → relates kernel { kernel with readyQueue }
  switches : ∀ (kernel : Kernel) thread, relates kernel (kernel.switchThread thread).2
  sleeps
    : ∀ {kernel : Kernel} {sleepQueue},
        sleepQueue.Sublist kernel.sleepQueue → relates kernel { kernel with sleepQueue }
  polls
    : ∀ {kernel kernel' : Kernel} {fuel handler},
        kernel.setPendingExecutorPoll fuel handler = .ok kernel' → relates kernel kernel'

namespace Routine

variable {relates : Kernel → Kernel → Prop} {kernel kernel' : Kernel} {thread : ThreadId}
  {suspendable : Suspendable} {fuel kind rounds : Nat} {now : Instant}

section

variable (routine : Routine relates)

include routine

theorem insertToReadyQueue (hi : kernel.insertToReadyQueue thread = .ok kernel')
    : relates kernel kernel' :=
  routine.readies (.inl rfl) (.refl _) (.refl _) hi

theorem leaveSleepQueue (suspendable : Suspendable)
    : relates kernel (kernel.leaveSleepQueue suspendable) := by
  rw [leaveSleepQueue_eq]
  exact routine.sleeps List.erase_sublist

/-- The next thread is taken off the queue and switched to. -/
theorem handOver : relates kernel kernel.handOver.2 := by
  refine routine.trans ?_ (routine.switches kernel.takeNextAboveLocks.2 _)
  rcases kernel.takeNextAboveLocks_cases with ⟨head, rest, hq, -, taken⟩ | ⟨-, taken⟩
  · rw [taken]
    exact routine.pops (hq ▸ List.sublist_cons_self head rest)
  · rw [taken]
    exact routine.refl kernel

theorem wakeupSuspendable (woken : kernel.wakeupSuspendable fuel suspendable = .ok kernel')
    : relates kernel kernel' := by
  cases suspendable with
  | thread thread =>
      rcases (wakeupThread_ok woken).2 with ⟨-, -, hi⟩ | ⟨-, rfl⟩
      · exact routine.readies (.inr (.inr rfl)) List.erase_sublist (.refl _) hi
      · exact routine.refl kernel'
  | interrupt handler => exact routine.polls woken

theorem wakeupHead {head : Suspendable} {rest : List Suspendable}
    (hq : kernel.sleepQueue = head :: rest)
    (woken : { kernel with sleepQueue := rest }.wakeupSuspendable fuel head = .ok kernel')
    : relates kernel kernel' := by
  refine routine.trans (routine.sleeps ?_) (routine.wakeupSuspendable woken)
  rw [hq]
  exact List.sublist_cons_self head rest

theorem wakeupNext (woken : kernel.wakeupNext fuel = .ok kernel') : relates kernel kernel' := by
  unfold Kernel.wakeupNext at woken
  split at woken
  · cases woken; exact routine.refl kernel
  next head rest hq => exact routine.wakeupHead hq woken

theorem resumeThread_moves (resumed : kernel.resumeThread thread = .ok kernel')
    : ∃ moved, relates kernel moved ∧ kernel' = moved.requestIfHigher thread := by
  obtain ⟨moved, requests, moves⟩ := resumeThread_ok resumed
  refine ⟨moved, ?_, requests⟩
  rcases moves with ⟨-, -, hi⟩ | ⟨-, -, hi⟩ | ⟨-, hi⟩ | ⟨-, rfl⟩
  · rw [leaveSleepQueue_eq] at hi
    exact routine.readies (.inr (.inl rfl)) List.erase_sublist List.erase_sublist hi
  · exact routine.readies (.inr (.inl rfl)) (.refl _) (.refl _) hi
  · exact routine.insertToReadyQueue hi
  · exact routine.refl moved

theorem resumeThread (requests : ∀ kernel, relates kernel (kernel.requestIfHigher thread))
    (resumed : kernel.resumeThread thread = .ok kernel')
    : relates kernel kernel' := by
  obtain ⟨moved, moves, rfl⟩ := routine.resumeThread_moves resumed
  exact routine.trans moves (requests moved)

theorem resumeInterrupt {handler : HandlerId}
    (resumed : kernel.resumeInterrupt fuel handler = .ok kernel')
    : relates kernel kernel' :=
  routine.trans (routine.leaveSleepQueue _) (routine.polls resumed)

/-- Suspending is the only method here that files threads elsewhere. -/
theorem suspendThread {maybeThread : Option ThreadId}
    (suspends
      : ∀ {kernel kernel' : Kernel} {thread},
          kernel.insertToSuspendedList thread = .ok kernel' → relates kernel kernel')
    (suspended : kernel.suspendThread maybeThread = .ok kernel')
    : relates kernel kernel' := by
  unfold Kernel.suspendThread at suspended
  dsimp only at suspended
  split at suspended
  next =>
    obtain ⟨removed, removes, hi⟩ := bind_ok.mp suspended
    obtain ⟨-, rfl⟩ := removeFromReadyQueue_ok removes
    exact routine.trans (routine.pops List.erase_sublist) (suspends hi)
  next => exact routine.trans routine.handOver (suspends suspended)
  next => exact suspends suspended
  next => cases suspended; exact routine.refl kernel
  next => cases suspended
  next => exact suspends suspended

theorem switchToNext (switched : kernel.switchToNext kind = .ok kernel')
    : relates kernel kernel' := by
  rcases switchToNext_ok switched with ⟨-, rfl⟩ | ⟨head, rest, hq, -, next⟩
  · exact routine.refl kernel'
  · have popped : relates kernel { kernel with readyQueue := rest } :=
      routine.pops (hq ▸ List.sublist_cons_self head rest)
    rcases next with ⟨-, hi⟩ | ⟨-, rfl⟩
    · exact routine.trans popped
        (routine.trans (routine.switches _ head) (routine.insertToReadyQueue hi))
    · exact popped

variable (alarms : ∀ (kernel : Kernel) alarm, relates kernel { kernel with alarm })

include alarms

theorem wakeDue (woken : wakeDue fuel now rounds kernel = .ok kernel')
    : relates kernel kernel' := by
  refine wakeDue_induction (relates kernel) ?_ ?_ (routine.refl kernel) woken
  · exact fun _ _ so_far => routine.trans so_far (alarms _ _)
  · exact fun _ _ _ _ so_far hq woke => routine.trans so_far (routine.wakeupHead hq woke)

theorem reschedule (rescheduled : kernel.reschedule fuel kind now = .ok kernel')
    : relates kernel kernel' := by
  obtain ⟨awake, woken, switched⟩ := bind_ok.mp rescheduled
  exact routine.trans (routine.wakeDue alarms woken) (routine.switchToNext switched)

theorem executePendingReschedule
    (kinds : ∀ (kernel : Kernel) kind, relates kernel { kernel with pendingRescheduleKind := kind })
    (executed : kernel.executePendingReschedule fuel now = .ok kernel')
    : relates kernel kernel' := by
  unfold Kernel.executePendingReschedule at executed
  dsimp only at executed
  split at executed
  · cases executed; exact kinds kernel _
  · exact routine.trans (kinds kernel _) (routine.reschedule alarms executed)

end

end Routine

/-- The relation is also kept by starting and blocking a thread, and by the notes on events,
deadlines, sleepers and the alarm.
-/
structure Steady (relates : Kernel → Kernel → Prop) : Prop extends Routine relates where
  notes
    : ∀ {kernel : Kernel} {events deadline sleepQueue alarm},
        relates kernel { kernel with events, deadline, sleepQueue, alarm }
  starts
    : ∀ {kernel : Kernel} {thread},
        kernel.state thread = .created → relates kernel (kernel.setState thread .started)
  blocks
    : ∀ {kernel : Kernel} {thread deadline sleepQueue alarm},
        relates kernel { kernel.setState thread .blocked with
          deadline, sleepQueue, alarm
          blockedList :=
            insertPast (kernel.goesBeforeBlocked thread) thread kernel.blockedList }

/-- The operation leaves locks and wait queues alone and suspends nothing. -/
def Plain : Op → Prop
  | .suspend _ | .wait _ _ | .notifyNext _ => False
  | .lock _ | .unlock _ | .enterSection _ | .leaveSection => False
  | _ => True

namespace Steady

variable {relates : Kernel → Kernel → Prop} {kernel kernel' : Kernel} {thread : ThreadId}
  {fuel : Nat} {events : Events} {deadline : Option Instant} (steady : Steady relates)

include steady

/-- The thread is filed as blocked, with or without a deadline. -/
theorem blockThread (blocked : kernel.blockThread thread deadline = .ok kernel')
    : relates kernel kernel' := by
  obtain ⟨-, _, _, rfl⟩ := blockThread_ok blocked
  exact steady.blocks

theorem blockUnlessReceived {received : Events}
    (blocks : kernel.blockUnlessReceived events deadline received = .ok kernel')
    : relates kernel kernel' := by
  rcases blockUnlessReceived_ok blocks with ⟨-, blocked⟩ | ⟨-, rfl⟩
  · exact steady.trans steady.handOver (steady.blockThread blocked)
  · exact steady.refl kernel'

theorem delayThreadUntil {wakeupTime : Instant}
    (delayed : kernel.delayThreadUntil wakeupTime = .ok kernel')
    : relates kernel kernel' :=
  steady.trans steady.handOver (steady.blockThread (delayThreadUntil_ok delayed).2)

variable
  (requests
    : ∀ (kernel : Kernel) kind, relates kernel { kernel with pendingRescheduleKind := kind })

include requests

theorem condReschedule : relates kernel kernel.condReschedule := by
  unfold Kernel.condReschedule
  split
  · exact steady.refl kernel
  · split
    · exact requests kernel _
    · exact steady.refl kernel

theorem requestIfHigher (kernel : Kernel) : relates kernel (kernel.requestIfHigher thread) := by
  unfold Kernel.requestIfHigher
  dsimp only
  split
  · exact requests kernel _
  · exact steady.refl kernel

theorem resumeThread (resumed : kernel.resumeThread thread = .ok kernel')
    : relates kernel kernel' :=
  steady.toRoutine.resumeThread (steady.requestIfHigher requests) resumed

/-- The case analysis of an operation, once for all relations of this kind. -/
theorem perform {op : Op} (hp : kernel.perform fuel op = .ok kernel') (plain : Plain op)
    : relates kernel kernel' := by
  cases op with
  | start thread =>
      simp only [Kernel.perform, startThread] at hp
      split at hp
      · cases hp
      next created =>
        exact steady.trans (steady.starts (not_ne_iff.mp created))
          (steady.resumeThread requests hp)
  | resume thread => exact steady.resumeThread requests hp
  | wakeupNext => exact steady.wakeupNext hp
  | reschedule kind now => exact steady.reschedule (fun _ _ => steady.notes) hp
  | executePendingReschedule now =>
      exact steady.executePendingReschedule (fun _ _ => steady.notes) requests hp
  | wakeupScheduler | yieldCurrentThread =>
      cases hp
      exact requests kernel _
  | delayUntil wakeupTime => exact steady.delayThreadUntil hp
  | waitEvent events deadline =>
      obtain ⟨result, waited, rfl⟩ := bind_pure_ok.mp hp
      obtain ⟨-, -, blocks⟩ := waitCurrentThreadEvent_ok waited
      exact steady.trans steady.notes (steady.blockUnlessReceived blocks)
  | condReschedule =>
      cases hp
      exact steady.condReschedule requests
  | sendEvents thread events =>
      obtain ⟨stored, rfl | resumed⟩ := sendEvents_ok hp
      · exact steady.notes
      · exact steady.trans steady.notes (steady.resumeThread requests resumed)
  | scheduleInterruptWakeup handler wakeupTime =>
      obtain ⟨-, alarm, rfl⟩ := scheduleInterruptWakeup_ok hp
      exact steady.notes
  | resumeInterrupt handler => exact steady.resumeInterrupt hp
  | _ => exact plain.elim

end Steady

end Scars.Kernel
