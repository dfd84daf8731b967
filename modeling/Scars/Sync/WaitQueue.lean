import Scars.Foundation.Runs
import Scars.Kernel.Scheduler

/-! `WaitQueue` with both kinds of waiters.
A thread is inserted by its priority, a task is appended. Each waiter has one link, so it
waits in at most one queue.
-/

namespace Scars

open Runs Function

/-- The name of an asynchronous task. -/
abbrev TaskId := Nat

/-- Whose `Suspendable` waits: a thread's or the `waiter` of a task. -/
inductive Waiter where
  | suspendable (suspendable : Suspendable)
  | task (task : TaskId)
  deriving DecidableEq, Repr

/-- The wait queues, and the queue that each waiter's `wait_queue_link` is in. When each waiter
arrived is an observer that no step reads.
-/
structure WaitQueues where
  queue : WaitQueueId → List Waiter
  owner : Waiter → Option WaitQueueId
  clock : Nat
  arrived : Waiter → Nat

namespace WaitQueues

def start : WaitQueues where
  queue := fun _ => []
  owner := fun _ => none
  clock := 0
  arrived := fun _ => 0

/-- Puts a waiter into a queue at the place the list says; its link must be free. -/
def link (queue : WaitQueueId) (waiter : Waiter) (waiters : List Waiter) (state : WaitQueues)
    : Except Fault WaitQueues :=
  if (state.owner waiter).isSome then
    .error .alreadyInList
  else
    .ok {
      queue := update state.queue queue waiters
      owner := update state.owner waiter (some queue)
      clock := state.clock + 1
      arrived := update state.arrived waiter state.clock }

/-- The insertion of `wait_current_thread`: `insert_after` the waiters of at least the same
priority.
-/
def wait (priority : Waiter → Priority) (queue : WaitQueueId) (suspendable : Suspendable)
    (state : WaitQueues)
    : Except Fault WaitQueues :=
  let waiter := .suspendable suspendable
  state.link queue waiter
    (OrderedInsert.insertPast (fun other => decide (priority waiter ≤ priority other)) waiter
      (state.queue queue))

/-- One poll of `WaitQueue::async_wait`: whether it is ready, and `waiter_queued` after it. -/
def pollAsyncWait (queue : WaitQueueId) (task : TaskId) (waiterQueued : Bool) (state : WaitQueues)
    : Except Fault ((Bool × Bool) × WaitQueues) :=
  if waiterQueued then
    .ok (((state.owner (.task task)).isNone, true), state)
  else do
    let state ← state.link queue (.task task) (state.queue queue ++ [.task task])
    return ((false, true), state)

/-- `pop_front`, which releases the link of the waiter. -/
def popFront (queue : WaitQueueId) (state : WaitQueues) : Option Waiter × WaitQueues :=
  match state.queue queue with
  | [] => (none, state)
  | waiter :: rest =>
      (some waiter, { state with
        queue := update state.queue queue rest
        owner := update state.owner waiter none })

/-- `WaitQueue::notify_one`: the waiter that is notified, if any. -/
def notifyOne (queue : WaitQueueId) (state : WaitQueues) : Option Waiter × WaitQueues :=
  state.popFront queue

/-- The loop of `notify_all`, for at most so many rounds. -/
def notifyLoop (queue : WaitQueueId) : Nat → WaitQueues → List Waiter × WaitQueues
  | 0, state => ([], state)
  | rounds + 1, state =>
      match state.popFront queue with
      | (none, state) => ([], state)
      | (some waiter, state) =>
          let (waiters, state) := state.notifyLoop queue rounds
          (waiter :: waiters, state)

/-- `WaitQueue::notify_all`: the waiters in the order they are notified. -/
def notifyAll (queue : WaitQueueId) (state : WaitQueues) : List Waiter × WaitQueues :=
  state.notifyLoop queue ((state.queue queue).length + 1)

inductive Event where
  | wait (queue : WaitQueueId) (suspendable : Suspendable)
  | pollAsyncWait (queue : WaitQueueId) (task : TaskId) (waiterQueued : Bool)
  | notifyOne (queue : WaitQueueId)
  | notifyAll (queue : WaitQueueId)
  deriving DecidableEq, Repr

def step (priority : Waiter → Priority) (state : WaitQueues) : Event → Except Fault WaitQueues
  | .wait queue suspendable => state.wait priority queue suspendable
  | .pollAsyncWait queue task waiterQueued =>
      (state.pollAsyncWait queue task waiterQueued).map Prod.snd
  | .notifyOne queue => .ok (state.notifyOne queue).2
  | .notifyAll queue => .ok (state.notifyAll queue).2

/-- The first waiter is more urgent, or as urgent and earlier. -/
def Precedes (priority : Waiter → Priority) (state : WaitQueues) (first second : Waiter) : Prop :=
  priority second < priority first
  ∨ (priority first = priority second ∧ state.arrived first < state.arrived second)

def Ordered (priority : Waiter → Priority) (state : WaitQueues) (queue : WaitQueueId) : Prop :=
  (state.queue queue).Pairwise (Precedes priority state)

variable {priority : Waiter → Priority} {state next : WaitQueues} {queue : WaitQueueId}

theorem Precedes.trans {first second third : Waiter} (one : Precedes priority state first second)
    (two : Precedes priority state second third)
    : Precedes priority state first third := by
  simp only [Precedes, Priority.lt_iff] at one two ⊢
  rcases one with above | ⟨he, earlier⟩
  · rcases two with below | ⟨equal, _⟩
    · exact .inl (Nat.lt_trans below above)
    · exact .inl (equal ▸ above)
  · rw [he]
    rcases two with below | ⟨equal, later⟩
    · exact .inl below
    · exact .inr ⟨equal, Nat.lt_trans earlier later⟩

theorem Precedes.irrefl (waiter : Waiter) : ¬ Precedes priority state waiter waiter := by
  simp [Precedes, Priority.lt_iff]

/-- What every step keeps besides the order: a queued waiter's link says where it is, and it
arrived before now.
-/
structure Linked (state : WaitQueues) : Prop where
  owner : ∀ queue, ∀ waiter ∈ state.queue queue, state.owner waiter = some queue
  arrived : ∀ queue, ∀ waiter ∈ state.queue queue, state.arrived waiter < state.clock

/-- All queues are linked and ordered. -/
structure Sorted (priority : Waiter → Priority) (state : WaitQueues) : Prop extends
    Linked state where
  ordered : ∀ queue, Ordered priority state queue

theorem sorted_start : Sorted priority start where
  owner := by simp [start]
  arrived := by simp [start]
  ordered := by simp [Ordered, start]

variable {waiter : Waiter} {waiters : List Waiter} {other : WaitQueueId}

theorem link_ok (linked : state.link queue waiter waiters = .ok next)
    : state.owner waiter = none
      ∧ next = {
          queue := update state.queue queue waiters
          owner := update state.owner waiter (some queue)
          clock := state.clock + 1
          arrived := update state.arrived waiter state.clock } := by
  obtain ⟨free, he⟩ := refused_ok.mp linked
  exact ⟨by simpa using free, (Except.ok.inj he).symm⟩

theorem queue_of_link (linked : state.link queue waiter waiters = .ok next)
    : next.queue queue = waiters := by
  obtain ⟨_, rfl⟩ := link_ok linked
  exact update_self ..

theorem pollAsyncWait_ok {task : TaskId} {outcome : Bool × Bool}
    (polled : state.pollAsyncWait queue task false = .ok (outcome, next))
    : state.link queue (.task task) (state.queue queue ++ [.task task]) = .ok next := by
  obtain ⟨linked, arrives, he⟩ := bind_ok.mp polled
  cases he
  exact arrives

theorem Linked.ne_of_free (linked : Linked state) (free : state.owner waiter = none)
    {other : Waiter} (hm : other ∈ state.queue queue)
    : other ≠ waiter := by
  rintro rfl
  have owned := linked.owner queue other hm
  rw [free] at owned
  cases owned

theorem Linked.precedes_link (linked : Linked state)
    (arrives : state.link queue waiter waiters = .ok next) {first second : Waiter}
    (one : first ∈ state.queue other) (two : second ∈ state.queue other)
    : Precedes priority next first second ↔ Precedes priority state first second := by
  obtain ⟨free, rfl⟩ := link_ok arrives
  simp only [Precedes, update_of_ne (linked.ne_of_free free one),
    update_of_ne (linked.ne_of_free free two)]

/-- A waiting waiter is released before one that arrives exactly when it is as urgent. -/
theorem Linked.precedes_arrival_iff (linked : Linked state)
    (arrives : state.link queue waiter waiters = .ok next) {other : Waiter}
    (hm : other ∈ state.queue queue)
    : Precedes priority next other waiter ↔ priority waiter ≤ priority other := by
  have earlier := linked.arrived queue other hm
  obtain ⟨free, rfl⟩ := link_ok arrives
  simp only [Precedes, update_of_ne (linked.ne_of_free free hm),
    update_self, Priority.lt_iff, Priority.le_iff]
  constructor
  · rintro (above | ⟨he, _⟩)
    · exact Nat.le_of_lt above
    · exact Nat.le_of_eq (by rw [he])
  · intro below
    rcases Nat.lt_or_eq_of_le below with above | he
    · exact .inl above
    · exact .inr ⟨Priority.rank_injective he.symm, earlier⟩

theorem Linked.mem_link (linked : Linked state)
    (arrives : state.link queue waiter waiters = .ok next)
    (members : ∀ other, other ∈ waiters ↔ other = waiter ∨ other ∈ state.queue queue)
    {item : Waiter} (hm : item ∈ next.queue other)
    : (item = waiter ∧ other = queue) ∨ (item ≠ waiter ∧ item ∈ state.queue other) := by
  obtain ⟨free, rfl⟩ := link_ok arrives
  by_cases he : other = queue
  case pos =>
      subst he
      simp only [update_self, members] at hm
      exact hm.imp (fun new => ⟨new, rfl⟩) fun old => ⟨linked.ne_of_free free old, old⟩
  case neg =>
      simp only [update_of_ne he] at hm
      exact .inr ⟨linked.ne_of_free free hm, hm⟩

theorem Sorted.link (sorted : Sorted priority state)
    (arrives : state.link queue waiter waiters = .ok next)
    (members : ∀ other, other ∈ waiters ↔ other = waiter ∨ other ∈ state.queue queue)
    (placed : waiters.Pairwise (Precedes priority next))
    : Sorted priority next := by
  have hm {other : WaitQueueId} {item : Waiter} (here : item ∈ next.queue other) :=
    sorted.toLinked.mem_link arrives members here
  have kept (other : WaitQueueId) : (state.queue other).Pairwise (Precedes priority next) :=
    (sorted.ordered other).imp_of_mem fun one two precedes =>
      (sorted.toLinked.precedes_link arrives one two).mpr precedes
  obtain ⟨_, rfl⟩ := link_ok arrives
  refine ⟨⟨fun other item here => ?_, fun other item here => ?_⟩, fun other => ?_⟩
  · rcases hm here with ⟨rfl, rfl⟩ | ⟨old, there⟩
    · simp
    · simpa [old] using sorted.owner other item there
  · rcases hm here with ⟨rfl, rfl⟩ | ⟨old, there⟩
    · simp
    · simpa [old] using Nat.lt_succ_of_lt (sorted.arrived other item there)
  · by_cases he : other = queue
    case pos => simpa [Ordered, he] using placed
    case neg => simpa [Ordered, he] using kept other

/-- A thread is inserted in its place. Witness: the walk passes those that are as urgent, who
arrived earlier, and stops before the first that is less urgent.
-/
theorem Sorted.wait (sorted : Sorted priority state) {suspendable : Suspendable}
    (waits : state.wait priority queue suspendable = .ok next)
    : Sorted priority next := by
  have linked := sorted.toLinked
  refine sorted.link waits (fun other => OrderedInsert.mem_insertPast) ?_
  refine OrderedInsert.pairwise_insertPast ?_ ?_ ?_ ?_
  · exact fun one two => one.trans two
  · exact (sorted.ordered queue).imp_of_mem fun one two precedes =>
      (linked.precedes_link waits one two).mpr precedes
  · intro other hm passes
    exact (linked.precedes_arrival_iff waits hm).mpr (of_decide_eq_true passes)
  · intro other hm fails
    have below := of_decide_eq_false fails
    rw [Priority.le_iff, Nat.not_le, ← Priority.lt_iff] at below
    exact .inl below

theorem Sorted.ordered_append_iff (sorted : Sorted priority state)
    (arrives : state.link queue waiter (state.queue queue ++ [waiter]) = .ok next)
    : Ordered priority next queue
      ↔ ∀ other ∈ state.queue queue, priority waiter ≤ priority other := by
  have linked := sorted.toLinked
  have kept : (state.queue queue).Pairwise (Precedes priority next) :=
    (sorted.ordered queue).imp_of_mem fun one two precedes =>
      (linked.precedes_link arrives one two).mpr precedes
  rw [Ordered, queue_of_link arrives, List.pairwise_append]
  constructor
  · intro ordered other hm
    have precedes := ordered.2.2 other hm waiter (by simp)
    exact (linked.precedes_arrival_iff arrives hm).mp precedes
  · intro urgent
    refine ⟨kept, List.pairwise_singleton .., fun other hm last he => ?_⟩
    rw [List.mem_singleton.mp he]
    exact (linked.precedes_arrival_iff arrives hm).mpr (urgent other hm)

end WaitQueues

end Scars
