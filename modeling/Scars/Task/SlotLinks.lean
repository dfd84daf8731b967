import Scars.Sync.WaitQueueRuns
import Scars.Task.Borrows
import Scars.Task.Slots

/-! Which control blocks the queues hold.
Transfers only move tasks from one queue to another, so the queues hold no task that was not
put into one of them by a spawn, a wake or its own wait.
-/

namespace Scars

open Runs Function
open Outcome (Meets)

namespace Executor

/-- All queues are intact and hold only such tasks. -/
structure Within (allowed : TaskId → Prop) (executor : Executor) : Prop where
  intact : executor.pendingReadyQueue.Intact
  pending : ∀ task, executor.pendingReadyQueue.isLinked task = true → allowed task
  ready : ∀ task ∈ executor.readyQueue, allowed task
  sleep : ∀ task ∈ executor.sleepQueue, allowed task
  wfi : ∀ task ∈ executor.wfiQueue, allowed task

/-- The operation puts no other task into a queue. -/
def KeepsWithin (allowed : TaskId → Prop) (operation : Executor → Except Fault Executor) : Prop :=
  ∀ executor, Within allowed executor
    → Meets (Within allowed) (fun _ => True) (operation executor)

variable {ha : TaskId → Prop} {executor : Executor} {task : TaskId} {queue : ExecutorQueue}

theorem within_new (kind : ExecutorKind) : Within ha (new kind) where
  intact := intact_new
  pending := nofun
  ready := nofun
  sleep := nofun
  wfi := nofun

theorem Within.mono {more : TaskId → Prop} (within : Within ha executor)
    (weaker
      : ∀ task,
          executor.pendingReadyQueue.isLinked task = true ∨ task ∈ executor.readyQueue
            ∨ task ∈ executor.sleepQueue ∨ task ∈ executor.wfiQueue
          → ha task → more task)
    : Within more executor where
  intact := within.intact
  pending task linked := weaker task (.inl linked) (within.pending task linked)
  ready task hm := weaker task (.inr (.inl hm)) (within.ready task hm)
  sleep task hm := weaker task (.inr (.inr (.inl hm))) (within.sleep task hm)
  wfi task hm := weaker task (.inr (.inr (.inr hm))) (within.wfi task hm)

theorem Within.borrow (within : Within ha executor) (borrowed : ExecutorQueue → Bool)
    : Within ha { executor with borrowed } :=
  ⟨within.intact, within.pending, within.ready, within.sleep, within.wfi⟩

theorem keepsWithin_withBorrow {body : Executor → Except Fault Executor}
    (keeps : KeepsWithin ha body)
    : KeepsWithin ha (withBorrow queue body) := by
  intro executor within
  refine (meets_borrowMut.tolerate fun _ _ => True.intro).bind ?_
  rintro inner ⟨_, rfl⟩
  exact (keeps _ (within.borrow _)).bind fun last within => within.borrow _

section

variable (fits : ha task)
include fits

theorem keepsWithin_pushReady : KeepsWithin ha (pushReady task) := by
  intro executor within
  unfold pushReady
  split
  · exact True.intro
  · refine ⟨within.intact, within.pending, fun other hm => ?_, within.sleep, within.wfi⟩
    rcases List.mem_append.mp hm with old | new
    · exact within.ready other old
    · exact List.mem_singleton.mp new ▸ fits

theorem keepsWithin_spawn : KeepsWithin ha (spawn task) :=
  keepsWithin_withBorrow (keepsWithin_pushReady fits)

theorem keepsWithin_pushResumed
    : KeepsWithin ha (pushResumed task) := by
  intro executor within
  unfold pushResumed
  split
  · exact keepsWithin_pushReady fits executor within
  · exact keepsWithin_spawn fits executor within

theorem keepsWithin_taskSleepUntil (deadline : Instant)
    : KeepsWithin ha (taskSleepUntil task deadline) := by
  intro executor within
  have timed : Within ha (executor.setWakeupTime task deadline) :=
    ⟨within.intact, within.pending, within.ready, within.sleep, within.wfi⟩
  refine keepsWithin_withBorrow ?_ _ timed
  intro inner within
  unfold insertSleep
  split
  · exact True.intro
  · refine ⟨within.intact, within.pending, within.ready, fun other hm => ?_, within.wfi⟩
    rcases OrderedInsert.mem_insertPast.mp hm with new | old
    · exact new ▸ fits
    · exact within.sleep other old

theorem keepsWithin_taskWaitForInterrupt
    : KeepsWithin ha (taskWaitForInterrupt task) := by
  refine keepsWithin_withBorrow ?_
  intro inner within
  unfold pushWfi
  split
  · exact True.intro
  · refine ⟨within.intact, within.pending, within.ready, within.sleep, fun other hm => ?_⟩
    rcases List.mem_append.mp hm with old | new
    · exact within.wfi other old
    · exact List.mem_singleton.mp new ▸ fits

/-- A wake of a task whose node is free keeps the pending queue intact. -/
theorem keepsWithin_resumeTask {fuel : Nat} {executor : Executor} (within : Within ha executor)
    (free : executor.pendingReadyQueue.isLinked task = false)
    (notHead : executor.pendingReadyQueue.loadHead () ≠ .item task)
    : Meets (Within ha) (fun _ => True) (executor.resumeTask fuel task) := by
  unfold resumeTask
  cases fuel with
  | zero =>
      split
      · exact True.intro
      next memory pushed =>
        simp only [QueueMemory.pushBack, QueueMemory.pushLoop] at pushed
        split at pushed <;> cases pushed
  | succ fuel =>
      obtain ⟨memory, pushed, intact, linked⟩ := within.intact.pushBack free notHead fuel
      rw [pushed]
      refine ⟨intact, fun other pending => ?_, within.ready, within.sleep, within.wfi⟩
      rcases (linked other).mp pending with old | new
      · exact within.pending other old
      · exact new ▸ fits

end

/-- The pending tasks are among those allowed, and stay so in the ready queue, by induction on
the rounds.
-/
theorem Within.resumePendingLoop (within : Within ha executor) (fuel rounds : Nat)
    : Meets (fun outcome => Within ha outcome.2) (fun _ => True)
        (executor.resumePendingLoop fuel rounds) := by
  induction rounds generalizing executor with
  | zero => exact True.intro
  | succ rounds ih =>
      unfold Executor.resumePendingLoop
      cases fuel with
      | zero => exact True.intro
      | succ fuel =>
          obtain ⟨popped, memory, popping, intact, linked, rest⟩ := within.intact.popFront fuel
          have shrunk : Within ha { executor with pendingReadyQueue := memory } :=
            ⟨intact, fun other still => within.pending other ((rest other).mp still).1,
              within.ready, within.sleep, within.wfi⟩
          rw [popping]
          cases popped with
          | none => exact shrunk
          | some task =>
              have fits := within.pending task (linked task rfl)
              refine (keepsWithin_pushResumed fits _ shrunk).bind fun middle within => ?_
              exact (ih within).bind fun outcome within => within

theorem keepsWithin_resumePendingTasks (fuel : Nat) (notify : Bool)
    : KeepsWithin ha (resumePendingTasks fuel notify) := by
  intro executor within
  unfold resumePendingTasks
  split
  · refine (meets_borrowMut.tolerate fun _ _ => True.intro).bind ?_
    rintro inner ⟨_, rfl⟩
    refine ((within.borrow _).resumePendingLoop fuel fuel).bind fun outcome within => ?_
    exact ⟨within.intact, within.pending, within.ready, within.sleep, within.wfi⟩
  · exact (within.resumePendingLoop fuel fuel).bind fun outcome within => within

theorem keepsWithin_resumeSleepingLoop (clock : Nat → Instant) (rounds : Nat)
    : KeepsWithin ha (resumeSleepingLoop clock rounds) := by
  induction rounds with
  | zero => exact fun _ within => within
  | succ rounds ih =>
      intro executor within
      unfold resumeSleepingLoop
      split
      · exact within
      next head rest here =>
        split
        · have fits := within.sleep head (by simp [here])
          have shrunk : Within ha { executor with sleepQueue := rest } :=
            ⟨within.intact, within.pending, within.ready,
              fun other hm => within.sleep other (by simp [here, hm]), within.wfi⟩
          exact (keepsWithin_pushResumed fits _ shrunk).bind ih
        · exact within

theorem keepsWithin_resumeSleepingTasks (clock : Nat → Instant)
    : KeepsWithin ha (resumeSleepingTasks clock) := by
  intro executor within
  unfold resumeSleepingTasks
  split
  · refine keepsWithin_withBorrow (keepsWithin_withBorrow ?_) executor within
    exact keepsWithin_resumeSleepingLoop _ _
  · exact keepsWithin_withBorrow (keepsWithin_resumeSleepingLoop _ _) executor within

theorem keepsWithin_resumeWfiLoop (rounds : Nat) : KeepsWithin ha (resumeWfiLoop rounds) := by
  induction rounds with
  | zero => exact fun _ within => within
  | succ rounds ih =>
      intro executor within
      unfold resumeWfiLoop
      split
      · exact within
      next head rest here =>
        have fits := within.wfi head (by simp [here])
        have shrunk : Within ha { executor with wfiQueue := rest } :=
          ⟨within.intact, within.pending, within.ready, within.sleep,
            fun other hm => within.wfi other (by simp [here, hm])⟩
        exact (keepsWithin_pushReady fits _ shrunk).bind ih

theorem keepsWithin_resume (fuel : Nat) (clock : Nat → Instant) (resumption : Resumption)
    : KeepsWithin ha (Polling.resume fuel clock resumption) := by
  cases resumption with
  | wfi =>
      intro executor within
      refine keepsWithin_withBorrow (keepsWithin_withBorrow ?_) executor within
      exact keepsWithin_resumeWfiLoop _
  | sleeping => exact keepsWithin_resumeSleepingTasks clock
  | pending => exact keepsWithin_resumePendingTasks fuel false

theorem Within.popReady (within : Within ha executor) {rest : Executor}
    (popped : executor.popReady = (some task, rest))
    : ha task ∧ Within ha rest := by
  unfold Executor.popReady at popped
  split at popped
  · cases popped
  next head tail here =>
    cases popped
    refine ⟨within.ready task (by simp [here]), within.intact, within.pending,
      fun other hm => within.ready other (by simp [here, hm]), within.sleep, within.wfi⟩

end Executor

/-- A queued waiter's link says where it is, and no queue has a waiter twice. -/
structure WaitQueues.Placed (waits : WaitQueues) : Prop where
  owner : ∀ queue, ∀ waiter ∈ waits.queue queue, waits.owner waiter = some queue
  distinct : ∀ queue, (waits.queue queue).Nodup

namespace WaitQueues.Placed

variable {waits next : WaitQueues} {queue : WaitQueueId} {waiter : Waiter}

theorem start : WaitQueues.start.Placed where
  owner := by simp [WaitQueues.start]
  distinct := by simp [WaitQueues.start]

theorem link (placed : waits.Placed)
    (arrives : waits.link queue waiter (waits.queue queue ++ [waiter]) = .ok next)
    : next.Placed := by
  obtain ⟨free, rfl⟩ := link_ok arrives
  have absent : ∀ other, waiter ∉ waits.queue other := by
    intro other hm
    have owned := placed.owner other waiter hm
    rw [free] at owned
    cases owned
  have hne {other : WaitQueueId} {old : Waiter} (hm : old ∈ waits.queue other)
      : old ≠ waiter :=
    fun he => absent other (he ▸ hm)
  refine ⟨fun other item hm => ?_, fun other => ?_⟩
  · by_cases he : other = queue
    case pos =>
        subst he
        simp only [update_self, List.mem_append, List.mem_singleton] at hm
        rcases hm with old | rfl
        · simpa [hne old] using placed.owner other item old
        · simp
    case neg =>
        simp only [update_of_ne he] at hm
        simpa [hne hm] using placed.owner other item hm
  · by_cases he : other = queue
    case pos =>
        subst he
        simp only [update_self]
        exact List.nodup_append.mpr ⟨placed.distinct other, List.pairwise_singleton _ waiter,
          fun old hm new here => List.mem_singleton.mp here ▸ hne hm⟩
    case neg => simpa [he] using placed.distinct other

theorem popFront (placed : waits.Placed) (queue : WaitQueueId)
    : (waits.popFront queue).2.Placed := by
  cases here : waits.queue queue with
  | nil => simpa [WaitQueues.popFront, here] using placed
  | cons head rest =>
      have distinct := placed.distinct queue
      rw [here, List.nodup_cons] at distinct
      rw [popFront_cons here]
      refine ⟨fun other item hm => ?_, fun other => ?_⟩
      · have there : item ∈ waits.queue other ∧ item ≠ head := by
          by_cases he : other = queue
          case pos =>
              subst he
              simp only [update_self] at hm
              exact ⟨by simp [here, hm], fun he => distinct.1 (he ▸ hm)⟩
          case neg =>
              simp only [update_of_ne he] at hm
              refine ⟨hm, ?_⟩
              rintro rfl
              have one := placed.owner other item hm
              have two := placed.owner queue item (by simp [here])
              rw [one] at two
              exact he (Option.some.inj two)
        simpa [there.2] using placed.owner other item there.1
      · by_cases he : other = queue
        case pos => simpa [he] using distinct.2
        case neg => simpa [he] using placed.distinct other

end WaitQueues.Placed

end Scars
