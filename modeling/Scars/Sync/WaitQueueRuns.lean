import Scars.Kernel.Moves
import Scars.Kernel.WorkConservation
import Scars.Sync.WaitQueue

/-! Wait queues release the most urgent waiter first, as long as every task is queued behind
waiters that are at least as urgent. For threads alone they are the queues of the kernel, in all
its runs.
-/

namespace Scars

namespace Kernel

variable {kernel kernel' : Kernel}

structure SameQueues (kernel kernel' : Kernel) : Prop where
  queue : kernel'.waitQueue = kernel.waitQueue
  owner : kernel'.waitOwner = kernel.waitOwner

theorem SameQueues.trans {first second third : Kernel} (left : first.SameQueues second)
    (right : second.SameQueues third)
    : first.SameQueues third :=
  ⟨right.queue.trans left.queue, right.owner.trans left.owner⟩

theorem Adjusts.sameQueues (adjusts : kernel.Adjusts kernel') : kernel.SameQueues kernel' := by
  obtain ⟨_, _, _, _, _, rfl⟩ := adjusts
  exact ⟨rfl, rfl⟩

/-- Only waits and notifications touch the wait queues. -/
theorem steady_sameQueues : Steady SameQueues where
  refl _ := ⟨rfl, rfl⟩
  trans := .trans
  readies _ _ _ hi := by
    rcases insertToReadyQueue_ok hi with ⟨-, rfl⟩ | ⟨-, -, rfl⟩ <;> exact ⟨rfl, rfl⟩
  pops _ := ⟨rfl, rfl⟩
  switches _ _ := ⟨rfl, rfl⟩
  sleeps _ := ⟨rfl, rfl⟩
  polls pushed := by
    obtain ⟨polls, rfl⟩ := setPendingExecutorPoll_ok pushed
    exact ⟨rfl, rfl⟩
  notes := ⟨rfl, rfl⟩
  starts _ := ⟨rfl, rfl⟩
  blocks := ⟨rfl, rfl⟩

/-- Base priorities never change. -/
theorem perform_suspendablePriority {fuel : Nat} {op : Op}
    (hp : kernel.perform fuel op = .ok kernel') (suspendable : Suspendable)
    : kernel'.suspendablePriority suspendable = kernel.suspendablePriority suspendable := by
  cases suspendable with
  | thread thread => exact sameBase_perform hp thread
  | interrupt handler => simp only [suspendablePriority, perform_handler hp]

theorem raisedForWait_suspendablePriority (ceiling : Priority) (suspendable : Suspendable)
    : (kernel.raisedForWait ceiling).2.suspendablePriority suspendable
      = kernel.suspendablePriority suspendable := by
  cases suspendable with
  | thread thread =>
      simp only [suspendablePriority, raisedForWait, raiseHandlerNesting,
        (scheduling_setHandlerPriorities _ _).thread, steady_moves.handOver.thread]
  | interrupt handler =>
      simp only [suspendablePriority, raisedForWait, raiseHandlerNesting,
        setHandlerPriorities_handler, steady_moves.handOver.handler, Function.update_apply]
      split <;> simp [*]

end Kernel

namespace WaitQueues

open Runs Function Kernel

variable {priority : Waiter → Priority} {state next : WaitQueues} {queue : WaitQueueId}
  {waiter : Waiter} {waiters : List Waiter}

theorem popFront_cons {head : Waiter} {rest : List Waiter} (here : state.queue queue = head :: rest)
    : state.popFront queue
      = (some head, { state with
          queue := update state.queue queue rest
          owner := update state.owner head none }) := by
  simp [popFront, here]

/-- A release keeps the queues sorted. Witness: the rest of a sorted queue is sorted, and the
waiter that left is not among those that still wait.
-/
theorem Sorted.popFront (sorted : Sorted priority state) (queue : WaitQueueId)
    : Sorted priority (state.popFront queue).2 := by
  unfold WaitQueues.popFront
  split
  next => exact sorted
  next head rest here =>
    have ordered := sorted.ordered queue
    rw [Ordered, here, List.pairwise_cons] at ordered
    have sublist (other : WaitQueueId)
        : (update state.queue queue rest other).Sublist (state.queue other) := by
      by_cases he : other = queue
      case pos => simp [he, here]
      case neg => simp [he]
    refine ⟨⟨fun other item hm => ?_, fun other item hm => ?_⟩, fun other => ?_⟩
    · have owned := sorted.owner other item ((sublist other).subset hm)
      have left : item ≠ head := by
        rintro rfl
        have first := sorted.owner queue item (by simp [here])
        have he : other = queue := Option.some.inj (owned.symm.trans first)
        subst he
        simp only [update_self] at hm
        exact Precedes.irrefl item (ordered.1 item hm)
      simpa [left] using owned
    · exact sorted.arrived other item ((sublist other).subset hm)
    · exact (sorted.ordered other).sublist (sublist other)

/-- The loop of `notify_all` keeps the queues sorted, by induction on its rounds. -/
theorem Sorted.notifyLoop (sorted : Sorted priority state) (queue : WaitQueueId) (rounds : Nat)
    : Sorted priority (state.notifyLoop queue rounds).2 := by
  induction rounds generalizing state with
  | zero => exact sorted
  | succ rounds ih =>
      have popped := sorted.popFront queue
      unfold WaitQueues.notifyLoop
      split
      next he =>
        rw [he] at popped
        exact popped
      next he =>
        rw [he] at popped
        exact ih popped

/-- The loop releases the whole queue in its order, by induction on it. -/
theorem notifyLoop_releases (here : state.queue queue = waiters)
    : (state.notifyLoop queue (waiters.length + 1)).1 = waiters := by
  induction waiters generalizing state with
  | nil => simp [notifyLoop, popFront, here]
  | cons head rest ih =>
      rw [List.length_cons, notifyLoop, popFront_cons here]
      exact congrArg (head :: ·) (ih (update_self ..))

theorem notifyAll_releases (state : WaitQueues) (queue : WaitQueueId)
    : (state.notifyAll queue).1 = state.queue queue :=
  notifyLoop_releases rfl

theorem Sorted.notifyOne_first (sorted : Sorted priority state)
    (released : state.notifyOne queue = (some waiter, next))
    : ∀ other ∈ state.queue queue, other ≠ waiter → Precedes priority state waiter other := by
  intro other hm hne
  have ordered := sorted.ordered queue
  unfold notifyOne WaitQueues.popFront at released
  split at released
  next => cases released
  next head rest here =>
    cases released
    rw [Ordered, here, List.pairwise_cons] at ordered
    rw [here] at hm
    rcases List.mem_cons.mp hm with he | behind
    · exact absurd he hne
    · exact ordered.1 other behind

/-- The queues and links are those of the kernel, with no task among the waiters. -/
structure Mirrors (kernel : Kernel) (state : WaitQueues) : Prop where
  queue : ∀ queue, state.queue queue = (kernel.waitQueue queue).map .suspendable
  owner : ∀ suspendable, state.owner (.suspendable suspendable) = kernel.waitOwner suspendable

variable {kernel kernel' : Kernel}

/-- The insertion of a thread is the insertion of the kernel. -/
theorem Mirrors.wait (mirrors : Mirrors kernel state) {suspendable : Suspendable}
    (priorities : ∀ other, priority (.suspendable other) = kernel.suspendablePriority other)
    (hi : kernel.insertToWaitQueue queue suspendable = .ok kernel')
    : ∃ next, state.wait priority queue suspendable = .ok next ∧ Mirrors kernel' next := by
  obtain ⟨free, he⟩ := refused_ok.mp hi
  cases he
  refine ⟨_, if_neg (by rw [mirrors.owner]; exact free), fun other => ?_, fun other => ?_⟩
  · by_cases here : other = queue
    case pos =>
        subst here
        simp only [update_self, mirrors.queue, OrderedInsert.insertPast_map, priorities]
    case neg => simp only [update_of_ne here, mirrors.queue]
  · by_cases here : other = suspendable
    case pos => simp [here]
    case neg => simp [here, mirrors.owner]

/-- The waiter that is released is the one that the kernel notifies. -/
theorem Mirrors.popFront (mirrors : Mirrors kernel state) (queue : WaitQueueId)
    : (state.notifyOne queue).1 = (kernel.popWaiter queue).1.map .suspendable
      ∧ Mirrors (kernel.popWaiter queue).2 (state.notifyOne queue).2 := by
  have he := mirrors.queue queue
  cases here : kernel.waitQueue queue with
  | nil =>
      rw [here] at he
      have none : state.popFront queue = (none, state) := by simp [WaitQueues.popFront, he]
      simp only [notifyOne, none, Kernel.popWaiter, here]
      exact ⟨rfl, mirrors⟩
  | cons head rest =>
      rw [here] at he
      simp only [notifyOne, popFront_cons he, Kernel.popWaiter, here]
      refine ⟨rfl, fun other => ?_, fun other => ?_⟩
      · by_cases here : other = queue
        case pos => simp [here]
        case neg => simp [here, mirrors.queue]
      · by_cases here : other = head
        case pos => simp [here]
        case neg => simp [here, mirrors.owner]

/-- A task is queued only behind waiters that are at least as urgent. -/
def fits (priority : Waiter → Priority) (state : WaitQueues) : Event → Bool
  | .pollAsyncWait queue task false =>
      (state.queue queue).all fun other => decide (priority (.task task) ≤ priority other)
  | _ => true

theorem Mirrors.congr (mirrors : Mirrors kernel state) (he : kernel.SameQueues kernel')
    : Mirrors kernel' state where
  queue queue := he.queue ▸ mirrors.queue queue
  owner suspendable := he.owner ▸ mirrors.owner suspendable

/-- The wait queues of the kernel are those of a run of fitting waits and notifications. -/
def Mirrored (priority : Waiter → Priority) (kernel : Kernel) : Prop :=
  ∃ state,
    Reaches (step priority) (fun state event => fits priority state event = true) start state
    ∧ Mirrors kernel state

/-- An operation of the kernel is at most one step of the queues. -/
theorem Mirrored.perform {fuel : Nat} {op : Op} (mirrored : Mirrored priority kernel)
    (priorities : ∀ other, priority (.suspendable other) = kernel.suspendablePriority other)
    (hp : kernel.perform fuel op = .ok kernel')
    : Mirrored priority kernel' := by
  obtain ⟨state, reached, mirrors⟩ := mirrored
  have stays (he : kernel.SameQueues kernel') : Mirrored priority kernel' :=
    ⟨state, reached, mirrors.congr he⟩
  cases op with
  | wait queue ceiling =>
      obtain ⟨-, enqueued, hi, blocks⟩ := waitCurrentThread_ok hp
      have raised : kernel.SameQueues (kernel.raisedForWait ceiling).2 :=
        steady_sameQueues.handOver.trans (adjusts_setHandlerPriorities _ _).sameQueues
      have restored := (adjusts_setHandlerPriorities _ _).sameQueues.trans
        (steady_sameQueues.blockThread blocks)
      obtain ⟨next, waits, mirrors⟩ := (mirrors.congr raised).wait
        (fun other => (priorities other).trans
          (raisedForWait_suspendablePriority ceiling other).symm) hi
      have fitting : fits priority state (.wait queue (.thread kernel.currentThread)) = true := rfl
      exact ⟨next, .step reached fitting waits, mirrors.congr restored⟩
  | notifyNext queue =>
      obtain ⟨-, popped⟩ := mirrors.popFront queue
      have fitting : fits priority state (.notifyOne queue) = true := rfl
      refine ⟨_, .step reached fitting rfl, popped.congr ?_⟩
      simp only [Kernel.perform, notifyNext] at hp
      split at hp
      next he => rw [he]; cases hp; exact ⟨rfl, rfl⟩
      next waiter _ he =>
        rw [he]
        cases waiter with
        | thread thread => exact steady_sameQueues.resumeThread (fun _ _ => ⟨rfl, rfl⟩) hp
        | interrupt handler => cases hp; exact ⟨rfl, rfl⟩
  | suspend maybeThread =>
      refine stays (steady_sameQueues.suspendThread (fun hi => ?_) hp)
      obtain ⟨-, -, rfl⟩ := insertToSuspendedList_ok hi
      exact ⟨rfl, rfl⟩
  | lock _ | unlock _ | enterSection _ | leaveSection =>
      exact stays (adjusts_perform hp trivial).sameQueues
  | _ => exact stays (steady_sameQueues.perform (fun _ _ => ⟨rfl, rfl⟩) hp trivial)

/-- The refinement over runs. Witness: base priorities are those of the program. -/
theorem mirrored_of_reached {fuel : Nat} {program : Program} {permitted : Kernel → Op → Prop}
    (reached : Kernel.Reached fuel program permitted kernel)
    (priorities
      : ∀ other,
          priority (.suspendable other) = (Kernel.start program).suspendablePriority other)
    : Mirrored priority kernel := by
  refine (reached.invariant
    (fun kernel =>
      (∀ other, priority (.suspendable other) = kernel.suspendablePriority other)
      ∧ Mirrored priority kernel)
    ⟨priorities, start, .here, fun _ => rfl, fun _ => rfl⟩ ?_).2
  rintro kernel op kernel' ⟨priorities, mirrored⟩ - hp
  exact ⟨fun other => (priorities other).trans (perform_suspendablePriority hp other).symm,
    mirrored.perform priorities hp⟩

/-- A fitting step keeps the queues sorted. -/
theorem Sorted.step (sorted : Sorted priority state) {event : Event}
    (fitting : fits priority state event = true) (hs : state.step priority event = .ok next)
    : Sorted priority next := by
  cases event with
  | wait queue suspendable => exact sorted.wait hs
  | pollAsyncWait queue task waiterQueued =>
      cases waiterQueued with
      | true =>
          cases hs
          exact sorted
      | false =>
          obtain ⟨⟨_, linked⟩, polled, rfl⟩ := map_ok.mp hs
          have arrives := pollAsyncWait_ok polled
          have urgent := List.all_eq_true.mp fitting
          have placed := (sorted.ordered_append_iff arrives).mpr
            fun other hm => of_decide_eq_true (urgent other hm)
          refine sorted.link arrives (by simp [or_comm]) ?_
          rwa [Ordered, queue_of_link arrives] at placed
  | notifyOne queue =>
      cases hs
      exact sorted.popFront queue
  | notifyAll queue =>
      cases hs
      exact sorted.notifyLoop queue _

/-- In every run whose tasks are queued only behind waiters that are at least as urgent, every
queue is ordered by urgency and arrival, so `notify_one` releases the earliest of the most
urgent and `notify_all` all of them in that order; and a task that is queued keeps the order
exactly when it meets that condition. The wait queues of all kernels that programs reach are
those of such runs. Witness: the invariant of the run.
-/
theorem waitQueue_releases_most_urgent (priority : Waiter → Priority) (state : WaitQueues)
    (reached
      : Reaches (step priority) (fun state event => fits priority state event = true) start state)
    : (∀ queue, Ordered priority state queue)
      ∧ (∀ queue waiter next, state.notifyOne queue = (some waiter, next)
          → ∀ other ∈ state.queue queue, other ≠ waiter → Precedes priority state waiter other)
      ∧ (∀ queue, (state.notifyAll queue).1 = state.queue queue)
      ∧ (∀ queue task outcome next,
          state.pollAsyncWait queue task false = .ok (outcome, next)
          → (Ordered priority next queue
            ↔ fits priority state (.pollAsyncWait queue task false) = true))
      ∧ (∀ fuel program permitted kernel,
          Kernel.Reached fuel program permitted kernel
          → (∀ other,
              priority (.suspendable other) = (Kernel.start program).suspendablePriority other)
          → Mirrored priority kernel) := by
  have sorted : Sorted priority state :=
    reached.invariant (Sorted priority) sorted_start
      fun _ _ _ sorted fitting hs => sorted.step fitting hs
  refine ⟨sorted.ordered, fun queue waiter next released => sorted.notifyOne_first released,
    state.notifyAll_releases, fun queue task outcome next polled => ?_,
    fun fuel program permitted kernel reached priorities => mirrored_of_reached reached priorities⟩
  rw [sorted.ordered_append_iff (pollAsyncWait_ok polled)]
  simp [fits]

/-- Task 1 is more urgent than task 9, and thread 5 is between them. -/
def taskPriority : Waiter → Priority
  | .task 1 => .thread 8
  | .task _ => .thread 2
  | .suspendable _ => .thread 5

/-- The urgent task waits first, then the thread, then the other task. -/
def fittingWaits : List Event :=
  [.pollAsyncWait 0 1 false, .wait 0 (.thread 5), .pollAsyncWait 0 9 false]

theorem waitQueue_releases_most_urgent_fitting
    : ∃ state, run (step taskPriority) start fittingWaits = .ok state
        ∧ state.queue 0 = [.task 1, .suspendable (.thread 5), .task 9]
        ∧ Ordered taskPriority state 0 := by
  obtain ⟨state, ran⟩ : ∃ state, run (step taskPriority) start fittingWaits = .ok state := ⟨_, rfl⟩
  have hq : state.queue 0 = [.task 1, .suspendable (.thread 5), .task 9] :=
    view_of_ok (fun state : WaitQueues => state.queue 0) ran rfl
  have reached := Reaches.run_allowed (fits taskPriority) .here (by decide) ran
  exact ⟨state, ran, hq, (waitQueue_releases_most_urgent taskPriority state reached).1 0⟩

/-- The urgent task comes after the other one, which is released before it. -/
theorem urgent_task_released_last
    : ∃ state, run (step taskPriority) start
          [.pollAsyncWait 0 9 false, .pollAsyncWait 0 1 false] = .ok state
        ∧ taskPriority (.task 9) < taskPriority (.task 1)
        ∧ .task 1 ∈ state.queue 0
        ∧ (state.notifyOne 0).1 = some (.task 9) :=
  ⟨_, rfl, by decide, by decide, rfl⟩

end WaitQueues

end Scars
