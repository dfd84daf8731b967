import Scars.Kernel.ConsistentRuns
import Scars.Kernel.Routines

/-! The ready queue and the blocked list are sorted.
The ready queue is in descending active priority, with lock holders first among equals. The
blocked list is in descending lock priority, so its head carries the highest lock held by
any blocked thread.
-/

namespace Scars.Kernel

open Runs OrderedInsert

/-- Twice the rank of the active priority, plus one for a thread that holds a lock. -/
def readyKey (kernel : Kernel) (thread : ThreadId) : Nat :=
  2 * (kernel.priority thread).rank + (kernel.lockPriority thread).isValid.toNat

/-- The rank of the highest lock a thread holds, zero if it holds none. -/
def lockKey (kernel : Kernel) (thread : ThreadId) : Nat :=
  (kernel.lockPriority thread).rank

/-- Both lists are sorted by their keys. -/
structure Ordered (kernel : Kernel) : Prop where
  ready : Descending kernel.readyKey kernel.readyQueue
  blocked : Descending kernel.lockKey kernel.blockedList

/-- Scheduling changes no thread's locks and keeps the lists sorted. -/
structure Scheduling (kernel kernel' : Kernel) : Prop where
  thread : kernel'.thread = kernel.thread
  lock : kernel'.lock = kernel.lock
  ordered : kernel.Ordered → kernel'.Ordered

variable {kernel kernel' : Kernel} {thread : ThreadId} {queue : WaitQueueId} {ceiling : Priority}
  {other : ThreadId}

theorem Scheduling.trans {first second third : Kernel} (left : first.Scheduling second)
    (right : second.Scheduling third)
    : first.Scheduling third where
  thread := right.thread.trans left.thread
  lock := right.lock.trans left.lock
  ordered := right.ordered ∘ left.ordered

theorem Scheduling.priority (scheduling : kernel.Scheduling kernel')
    : kernel'.priority = kernel.priority := by
  funext thread
  simp only [Kernel.priority, scheduling.thread]

theorem readyKey_congr (he : kernel'.thread thread = kernel.thread thread)
    : kernel'.readyKey thread = kernel.readyKey thread := by
  simp only [readyKey, Kernel.priority, Kernel.lockPriority, he]

theorem lockKey_congr (he : kernel'.thread thread = kernel.thread thread)
    : kernel'.lockKey thread = kernel.lockKey thread := by
  simp only [lockKey, Kernel.lockPriority, he]

/-- Sublists of sorted lists are sorted, when the locks of their members stay the same. -/
theorem Ordered.sublist (ordered : kernel.Ordered)
    (ready : kernel'.readyQueue.Sublist kernel.readyQueue)
    (blocked : kernel'.blockedList.Sublist kernel.blockedList)
    (sameReady : ∀ thread ∈ kernel'.readyQueue, kernel'.thread thread = kernel.thread thread)
    (sameBlocked
      : ∀ thread ∈ kernel'.blockedList, kernel'.thread thread = kernel.thread thread)
    : kernel'.Ordered where
  ready := (ordered.ready.sublist ready).congr fun thread hm =>
    readyKey_congr (sameReady thread hm)
  blocked := (ordered.blocked.sublist blocked).congr fun thread hm =>
    lockKey_congr (sameBlocked thread hm)

theorem Scheduling.of_sublist (thread : kernel'.thread = kernel.thread)
    (lock : kernel'.lock = kernel.lock) (ready : kernel'.readyQueue.Sublist kernel.readyQueue)
    (blocked : kernel'.blockedList.Sublist kernel.blockedList)
    : kernel.Scheduling kernel' :=
  ⟨thread, lock, fun ordered =>
    ordered.sublist ready blocked (fun _ _ => congrFun thread _) fun _ _ => congrFun thread _⟩

theorem Scheduling.of_eq
    (he
      : (kernel'.thread, kernel'.lock, kernel'.readyQueue, kernel'.blockedList)
        = (kernel.thread, kernel.lock, kernel.readyQueue, kernel.blockedList))
    : kernel.Scheduling kernel' := by
  obtain ⟨thread, lock, ready, blocked⟩ := by simpa only [Prod.mk.injEq] using he
  exact .of_sublist thread lock (ready ▸ .refl _) (blocked ▸ .refl _)

/-- The threads that the insertion into the ready queue walks past have at least the key of
the inserted one, and the others at most. Witness: a holder stops at its equals, a thread
without locks walks past them.
-/
theorem goesBeforeReady_iff
    : (kernel.goesBeforeReady thread other = true
        → kernel.readyKey thread ≤ kernel.readyKey other)
      ∧ (kernel.goesBeforeReady thread other = false
        → kernel.readyKey other ≤ kernel.readyKey thread) := by
  unfold goesBeforeReady readyKey
  have atMostOne := Bool.toNat_le (kernel.lockPriority other).isValid
  cases holds : (kernel.lockPriority thread).isValid with
  | true =>
      simp only [if_true, decide_eq_true_eq, decide_eq_false_iff_not, Priority.lt_iff,
        Bool.toNat_true]
      constructor <;> intro compared <;> omega
  | false =>
      simp only [Bool.false_eq_true, if_false, decide_eq_true_eq, decide_eq_false_iff_not,
        Priority.le_iff, Bool.toNat_false]
      constructor <;> intro compared <;> omega

theorem goesBeforeBlocked_iff
    : (kernel.goesBeforeBlocked thread other = true
        → kernel.lockKey thread ≤ kernel.lockKey other)
      ∧ (kernel.goesBeforeBlocked thread other = false
        → kernel.lockKey other ≤ kernel.lockKey thread) := by
  have invalid {status : PriorityStatus} (notValid : status.isValid = false)
      : status.rank = 0 := by
    cases status <;> simp_all [PriorityStatus.isValid]
  unfold goesBeforeBlocked lockKey
  dsimp only
  cases otherValid : (kernel.lockPriority other).isValid with
  | false => cases (kernel.lockPriority thread).isValid <;> simp [invalid otherValid]
  | true =>
      cases threadValid : (kernel.lockPriority thread).isValid with
      | false => simp [invalid threadValid]
      | true =>
          have compared := PriorityStatus.ge_iff otherValid threadValid
          simp only [Bool.and_self, if_true, compared, Bool.eq_false_iff, ne_eq]
          exact ⟨id, fun notAbove => by omega⟩

theorem scheduling_insertToReadyQueue (hi : kernel.insertToReadyQueue thread = .ok kernel')
    : kernel.Scheduling kernel' := by
  rcases insertToReadyQueue_ok hi with ⟨-, rfl⟩ | ⟨-, -, rfl⟩
  · exact .of_eq rfl
  · exact ⟨rfl, rfl, fun ordered => ⟨ordered.ready.insertPast
      (fun _ => goesBeforeReady_iff.1) (fun _ => goesBeforeReady_iff.2), ordered.blocked⟩⟩

theorem scheduling_insertToSuspendedList (hi : kernel.insertToSuspendedList thread = .ok kernel')
    : kernel.Scheduling kernel' := by
  obtain ⟨-, -, rfl⟩ := insertToSuspendedList_ok hi
  exact .of_eq rfl

theorem scheduling_setCeilingThreshold (ceiling : PriorityStatus)
    : kernel.Scheduling (kernel.setCeilingThreshold ceiling) := by
  cases ceiling <;> exact .of_eq rfl

theorem scheduling_setHandlerPriorities (handler : HandlerId)
    (priorities : PriorityStatus × PriorityStatus)
    : kernel.Scheduling (kernel.setHandlerPriorities handler priorities) := by
  refine Scheduling.trans ?_ (scheduling_setCeilingThreshold _)
  exact .of_eq rfl

/-- Insertions keep the lists sorted and removals leave sublists. -/
theorem steady_scheduling : Steady Scheduling where
  refl _ := .of_eq rfl
  trans := .trans
  readies _ blocked _ hi := by
    refine Scheduling.trans ?_ (scheduling_insertToReadyQueue hi)
    exact .of_sublist rfl rfl (.refl _) blocked
  pops shorter := .of_sublist rfl rfl shorter (.refl _)
  switches _ _ := .of_eq rfl
  sleeps _ := .of_eq rfl
  polls pushed := by
    obtain ⟨polls, rfl⟩ := setPendingExecutorPoll_ok pushed
    exact .of_eq rfl
  notes := .of_eq rfl
  starts _ := .of_eq rfl
  blocks := ⟨rfl, rfl, fun ordered => ⟨ordered.ready, ordered.blocked.insertPast
    (fun _ => goesBeforeBlocked_iff.1) (fun _ => goesBeforeBlocked_iff.2)⟩⟩

theorem scheduling_requests (kernel : Kernel) (kind : Nat)
    : kernel.Scheduling { kernel with pendingRescheduleKind := kind } :=
  .of_eq rfl

theorem scheduling_condReschedule : kernel.Scheduling kernel.condReschedule :=
  steady_scheduling.condReschedule scheduling_requests

theorem scheduling_insertToWaitQueue {suspendable : Suspendable}
    (hi : kernel.insertToWaitQueue queue suspendable = .ok kernel')
    : kernel.Scheduling kernel' := by
  unfold insertToWaitQueue at hi
  split at hi
  · cases hi
  · cases hi; exact .of_eq rfl

/-- The kernel in which a waiting thread is blocked differs from the one after the hand-over
in its wait queue and the syscall handler only.
-/
theorem scheduling_enqueued {enqueued : Kernel}
    (hi
      : (kernel.raisedForWait ceiling).2.insertToWaitQueue queue
        (.thread kernel.currentThread) = .ok enqueued)
    : kernel.handOver.2.Scheduling (enqueued.setHandlerNesting SYSCALL_INTERRUPT_HANDLER
        (kernel.raisedForWait ceiling).1) := by
  have raised : kernel.handOver.2.Scheduling (kernel.raisedForWait ceiling).2 :=
    scheduling_setHandlerPriorities _ _
  exact (raised.trans (scheduling_insertToWaitQueue hi)).trans
    (scheduling_setHandlerPriorities _ _)

theorem scheduling_waitCurrentThread (waited : kernel.waitCurrentThread queue ceiling = .ok kernel')
    : kernel.Scheduling kernel' := by
  obtain ⟨-, enqueued, hi, blocks⟩ := waitCurrentThread_ok waited
  exact (steady_scheduling.handOver.trans (scheduling_enqueued hi)).trans
    (steady_scheduling.blockThread blocks)

theorem scheduling_wakeDue {fuel rounds : Nat} {now : Instant}
    (woken : wakeDue fuel now rounds kernel = .ok kernel')
    : kernel.Scheduling kernel' :=
  steady_scheduling.wakeDue (fun _ _ => .of_eq rfl) woken

theorem scheduling_resumeThread (resumed : kernel.resumeThread thread = .ok kernel')
    : kernel.Scheduling kernel' :=
  steady_scheduling.resumeThread scheduling_requests resumed

theorem scheduling_suspendThread {maybeThread : Option ThreadId}
    (suspended : kernel.suspendThread maybeThread = .ok kernel')
    : kernel.Scheduling kernel' :=
  steady_scheduling.suspendThread scheduling_insertToSuspendedList suspended

theorem scheduling_executePendingReschedule {fuel : Nat} {now : Instant}
    (executed : kernel.executePendingReschedule fuel now = .ok kernel')
    : kernel.Scheduling kernel' :=
  steady_scheduling.executePendingReschedule (fun _ _ => steady_scheduling.notes)
    scheduling_requests executed

end Scars.Kernel
