import Scars.Kernel.SingleQueue
import Scars.Task.Borrows

/-! Executors whose tasks are woken once at a time.
A task is awake while it is in the pending or the ready queue. As long as nothing wakes a task
that is awake already, its links are free whenever it is moved.
-/

namespace Scars

open Runs Function
open Outcome (Meets)

/-- A fault of the executor other than the two that a link in use raises. -/
def Fault.Loose (fault : Fault) : Prop :=
  fault = .alreadyBorrowed ∨ fault = .diverges ∨ fault = .notCallable

namespace Executor

/-- The task is in the pending or in the ready queue. -/
def awake (executor : Executor) (task : TaskId) : Bool :=
  executor.pendingReadyQueue.isLinked task || executor.readyQueue.contains task

/-- Each task is in a queue at most once, and not in both the pending and the ready queue. -/
structure Waking (executor : Executor) : Prop where
  intact : executor.pendingReadyQueue.Intact
  ready : executor.readyQueue.Nodup
  apart : ∀ task, executor.pendingReadyQueue.isLinked task = true → task ∉ executor.readyQueue
  sleep : executor.sleepQueue.Nodup
  wfi : executor.wfiQueue.Nodup
  links : ∀ task ∈ executor.sleepQueue, task ∉ executor.wfiQueue

/-- The queues are in order afterwards and no task that was awake is forgotten. -/
structure Resumes (before after : Executor) : Prop extends Waking after where
  awake : ∀ task, before.awake task = true → after.awake task = true

theorem waking_new (kind : ExecutorKind) : Waking (new kind) where
  intact := intact_new
  ready := List.nodup_nil
  apart := by simp [new]
  sleep := List.nodup_nil
  wfi := List.nodup_nil
  links := by simp [new]

variable {executor after : Executor} {task : TaskId} {queue : ExecutorQueue} {clock : Nat → Instant}

theorem awake_iff
    : executor.awake task = true
      ↔ executor.pendingReadyQueue.isLinked task = true ∨ task ∈ executor.readyQueue := by
  simp [awake]

theorem Resumes.refl (waking : Waking executor) : Resumes executor executor := ⟨waking, fun _ => id⟩

theorem Waking.borrow (waking : Waking executor) (borrowed : ExecutorQueue → Bool)
    : Waking { executor with borrowed } :=
  ⟨waking.intact, waking.ready, waking.apart, waking.sleep, waking.wfi, waking.links⟩

theorem Resumes.borrow {before : Executor} (resumes : Resumes before after)
    (borrowed : ExecutorQueue → Bool)
    : Resumes before { after with borrowed } :=
  ⟨resumes.toWaking.borrow borrowed, resumes.awake⟩

/-- A guard around an operation adds only the panic of the borrow. -/
theorem meets_withBorrow {body : Executor → Except Fault Executor}
    (meets : Meets (Resumes (executor.borrowing queue)) Fault.Loose
      (body (executor.borrowing queue)))
    : Meets (Resumes executor) Fault.Loose (withBorrow queue body executor) := by
  refine (meets_borrowMut.tolerate fun _ taken => .inl taken.1).bind ?_
  rintro inner ⟨_, rfl⟩
  refine meets.bind fun last resumes => ?_
  exact ⟨(resumes.borrow _).toWaking, resumes.awake⟩

theorem Waking.pushReady (waking : Waking executor) (asleep : executor.awake task = false)
    : executor.pushReady task
        = .ok { executor with readyQueue := executor.readyQueue ++ [task] }
      ∧ Resumes executor { executor with readyQueue := executor.readyQueue ++ [task] } := by
  obtain ⟨notLinked, absent⟩
    : executor.pendingReadyQueue.isLinked task = false ∧ task ∉ executor.readyQueue := by
    simpa [Executor.awake] using asleep
  refine ⟨by simp [Executor.pushReady, absent], ⟨waking.intact, ?_, ?_, waking.sleep, waking.wfi,
    waking.links⟩, ?_⟩
  · exact List.nodup_append.mpr ⟨waking.ready, List.pairwise_singleton _ task, by
      rintro other hm _ he rfl
      rw [List.mem_singleton] at he
      exact absent (he ▸ hm)⟩
  · intro other linked hm
    rcases List.mem_append.mp hm with old | new
    · exact waking.apart other linked old
    · rw [List.mem_singleton.mp new, notLinked] at linked
      cases linked
  · intro other was
    rcases awake_iff.mp was with linked | hm
    · exact awake_iff.mpr (.inl linked)
    · exact awake_iff.mpr (.inr (List.mem_append_left _ hm))

theorem awake_pushed (other : TaskId)
    : { executor with readyQueue := executor.readyQueue ++ [task] }.awake other = true
      ↔ executor.awake other = true ∨ other = task := by
  simp [awake_iff, or_assoc]

theorem spawn_ok (spawned : executor.spawn task = .ok after)
    : after = { executor with readyQueue := executor.readyQueue ++ [task] } := by
  obtain ⟨inner, borrows, rest⟩ := bind_ok.mp spawned
  obtain ⟨last, pushed, he⟩ := bind_ok.mp rest
  obtain ⟨free, rfl⟩ := borrowMut_ok borrows
  obtain ⟨_, rfl⟩ := pushReady_ok pushed
  cases he
  simp only [release, borrowing, update_idem]
  rw [← free, update_eq_self]

section

variable (waking : Waking executor)
include waking

theorem Waking.spawn (asleep : executor.awake task = false)
    : Meets
        (fun after => after = { executor with readyQueue := executor.readyQueue ++ [task] })
        Fault.Loose (executor.spawn task) := by
  have pushed := (waking.borrow (update executor.borrowed .ready true)).pushReady asleep
  refine (meets_borrowMut.tolerate fun _ taken => .inl taken.1).bind ?_
  rintro inner ⟨free, rfl⟩
  rw [Executor.borrowing, pushed.1]
  change Executor.release _ _ = _
  simp only [release, update_idem]
  rw [← free, update_eq_self]

theorem Waking.pushResumed (asleep : executor.awake task = false)
    : Meets
        (fun after => after = { executor with readyQueue := executor.readyQueue ++ [task] })
        Fault.Loose (executor.pushResumed task) := by
  unfold Executor.pushResumed
  split
  · rw [(waking.pushReady asleep).1]
    exact rfl
  · exact waking.spawn asleep

/-- The pending tasks are transferred. Witness: induction on the rounds; a task that was
pending is not in the ready queue, and its link is free once it is popped.
-/
theorem Waking.resumePendingLoop (fuel rounds : Nat)
    : Meets (fun outcome => Resumes executor outcome.2) Fault.Loose
        (executor.resumePendingLoop (fuel + 1) rounds) := by
  induction rounds generalizing executor with
  | zero => exact .inr (.inl rfl)
  | succ rounds ih =>
      obtain ⟨popped, memory, popping, intact, linked, rest⟩ := waking.intact.popFront fuel
      have shrunk : Waking { executor with pendingReadyQueue := memory } :=
        ⟨intact, waking.ready, fun other still => waking.apart other ((rest other).mp still).1,
          waking.sleep, waking.wfi, waking.links⟩
      unfold Executor.resumePendingLoop
      rw [popping]
      cases popped with
      | none =>
          refine ⟨shrunk, fun other was => ?_⟩
          rcases awake_iff.mp was with pending | hm
          · exact awake_iff.mpr (.inl ((rest other).mpr ⟨pending, by simp⟩))
          · exact awake_iff.mpr (.inr hm)
      | some task =>
          have asleep : { executor with pendingReadyQueue := memory }.awake task = false := by
            have free : memory.isLinked task ≠ true := fun still => ((rest task).mp still).2 rfl
            simp [Executor.awake, free, waking.apart task (linked task rfl)]
          refine (shrunk.pushResumed asleep).bind ?_
          rintro _ rfl
          refine (ih (shrunk.pushReady asleep).2.toWaking).bind fun outcome resumes => ?_
          refine ⟨resumes.toWaking, fun other was => ?_⟩
          refine resumes.awake other ((awake_pushed other).mpr ?_)
          by_cases he : other = task
          case pos => exact .inr he
          case neg =>
              refine .inl (awake_iff.mpr ((awake_iff.mp was).imp_left fun pending => ?_))
              exact (rest other).mpr ⟨pending, fun again => he (Option.some.inj again).symm⟩

theorem Waking.resumePendingTasks (fuel : Nat) (notify : Bool)
    : Meets (Resumes executor) Fault.Loose
        (executor.resumePendingTasks (fuel + 1) notify) := by
  unfold Executor.resumePendingTasks
  split
  · refine (meets_borrowMut.tolerate fun _ taken => .inl taken.1).bind ?_
    rintro inner ⟨_, rfl⟩
    refine ((waking.borrow _).resumePendingLoop fuel (fuel + 1)).bind fun outcome resumes => ?_
    exact ⟨⟨resumes.intact, resumes.ready, resumes.apart, resumes.sleep, resumes.wfi,
      resumes.links⟩, resumes.awake⟩
  · exact (waking.resumePendingLoop fuel (fuel + 1)).bind fun outcome resumes => resumes

/-- The sleeping tasks that are due are transferred, if none of them is awake. Witness:
induction on the rounds; the head leaves the sleep queue, so those behind it stay asleep.
-/
theorem Waking.resumeSleepingLoop {rounds : Nat}
    (asleep
      : ∀ task ∈ executor.sleepQueue,
          (∃ round < rounds, executor.wakeupTime task ≤ clock round)
          → executor.awake task = false)
    : Meets (Resumes executor) Fault.Loose (executor.resumeSleepingLoop clock rounds) := by
  induction rounds generalizing executor with
  | zero => exact .refl waking
  | succ rounds ih =>
      unfold Executor.resumeSleepingLoop
      split
      · exact Resumes.refl waking
      next head rest here =>
        split
        next due =>
          have distinct := waking.sleep
          rw [here, List.nodup_cons] at distinct
          have shrunk : Waking { executor with sleepQueue := rest } :=
            ⟨waking.intact, waking.ready, waking.apart, distinct.2, waking.wfi,
              fun task hm => waking.links task (by simp [here, hm])⟩
          have headAsleep : { executor with sleepQueue := rest }.awake head = false :=
            asleep head (by simp [here]) ⟨rounds, Nat.lt_succ_self rounds, due⟩
          obtain ⟨_, pushed⟩ := shrunk.pushReady headAsleep
          refine (shrunk.pushResumed headAsleep).bind ?_
          rintro _ rfl
          refine (ih pushed.toWaking fun task hm later => ?_).mono fun _ resumes =>
            ⟨resumes.toWaking, fun task was => resumes.awake task (pushed.awake task was)⟩
          obtain ⟨round, before, due⟩ := later
          have still := asleep task (by simp [here, hm]) ⟨round, by omega, due⟩
          rw [Bool.eq_false_iff, Ne, awake_pushed, not_or]
          refine ⟨Bool.eq_false_iff.mp still, ?_⟩
          rintro rfl
          exact distinct.1 hm
        next => exact Resumes.refl waking

theorem Waking.resumeSleepingTasks
    (asleep
      : ∀ task ∈ executor.sleepQueue,
          (∃ round ≤ executor.sleepQueue.length, executor.wakeupTime task ≤ clock round)
          → executor.awake task = false)
    : Meets (Resumes executor) Fault.Loose (executor.resumeSleepingTasks clock) := by
  unfold Executor.resumeSleepingTasks
  split
  · refine meets_withBorrow (meets_withBorrow ?_)
    refine ((waking.borrow _).borrow _).resumeSleepingLoop
      fun task hm ⟨round, before, due⟩ => ?_
    exact asleep task hm ⟨round, Nat.le_of_lt_succ before, due⟩
  · refine meets_withBorrow ?_
    refine (waking.borrow _).resumeSleepingLoop fun task hm ⟨_, _, due⟩ => ?_
    exact asleep task hm ⟨0, Nat.zero_le _, due⟩

/-- The tasks that wait for the interrupt are transferred, if none of them is awake, by
induction on the rounds.
-/
theorem Waking.resumeWfiLoop {rounds : Nat}
    (asleep : ∀ task ∈ executor.wfiQueue, executor.awake task = false)
    : Meets (Resumes executor) Fault.Loose (executor.resumeWfiLoop rounds) := by
  induction rounds generalizing executor with
  | zero => exact .refl waking
  | succ rounds ih =>
      unfold Executor.resumeWfiLoop
      split
      · exact Resumes.refl waking
      next head rest here =>
        have distinct := waking.wfi
        rw [here, List.nodup_cons] at distinct
        have shrunk : Waking { executor with wfiQueue := rest } :=
          ⟨waking.intact, waking.ready, waking.apart, waking.sleep, distinct.2,
            fun task hm later => waking.links task hm (by simp [here, later])⟩
        have headAsleep : { executor with wfiQueue := rest }.awake head = false :=
          asleep head (by simp [here])
        obtain ⟨pushes, pushed⟩ := shrunk.pushReady headAsleep
        rw [pushes]
        refine (ih pushed.toWaking fun task hm => ?_).mono fun _ resumes =>
          ⟨resumes.toWaking, fun task was => resumes.awake task (pushed.awake task was)⟩
        have still := asleep task (by simp [here, hm])
        rw [Bool.eq_false_iff, Ne, awake_pushed, not_or]
        refine ⟨Bool.eq_false_iff.mp still, ?_⟩
        rintro rfl
        exact distinct.1 hm

theorem Waking.resumeWfiTasks (asleep : ∀ task ∈ executor.wfiQueue, executor.awake task = false)
    : Meets (Resumes executor) Fault.Loose executor.resumeWfiTasks :=
  meets_withBorrow (meets_withBorrow (((waking.borrow _).borrow _).resumeWfiLoop asleep))

theorem Waking.taskSleepUntil {deadline : Instant} (free : executor.inSleepList task = false)
    : Meets (Resumes executor) Fault.Loose (executor.taskSleepUntil task deadline) := by
  obtain ⟨notSleeping, notWaiting⟩ : task ∉ executor.sleepQueue ∧ task ∉ executor.wfiQueue := by
    simpa [inSleepList] using free
  have inserts (inner : Executor) (he : inner.inSleepList task = false)
      : inner.insertSleep task deadline
        = .ok { inner with
            sleepQueue := OrderedInsert.insertPast
              (fun other => decide (inner.wakeupTime other ≤ deadline)) task
              inner.sleepQueue } := by
    rw [insertSleep, he]
    rfl
  have sleeps : Meets (Resumes (executor.setWakeupTime task deadline)) Fault.Loose
      (executor.taskSleepUntil task deadline) := by
    refine meets_withBorrow ?_
    rw [inserts ((executor.setWakeupTime task deadline).borrowing .sleep) free]
    refine ⟨⟨waking.intact, waking.ready, waking.apart,
      OrderedInsert.nodup_insertPast notSleeping waking.sleep, waking.wfi, ?_⟩, fun _ => id⟩
    intro other hm
    rcases OrderedInsert.mem_insertPast.mp hm with rfl | old
    · exact notWaiting
    · exact waking.links other old
  exact sleeps.mono fun _ resumes => ⟨resumes.toWaking, resumes.awake⟩

theorem Waking.taskWaitForInterrupt (free : executor.inSleepList task = false)
    : Meets (Resumes executor) Fault.Loose (executor.taskWaitForInterrupt task) := by
  obtain ⟨notSleeping, notWaiting⟩ : task ∉ executor.sleepQueue ∧ task ∉ executor.wfiQueue := by
    simpa [inSleepList] using free
  have pushes : (executor.borrowing .wfi).pushWfi task
      = .ok { executor.borrowing .wfi with wfiQueue := executor.wfiQueue ++ [task] } := by
    have he : (executor.borrowing .wfi).inSleepList task = false := free
    rw [pushWfi, he]
    rfl
  refine meets_withBorrow ?_
  rw [pushes]
  refine ⟨⟨waking.intact, waking.ready, waking.apart, waking.sleep, ?_, ?_⟩, fun _ => id⟩
  · refine List.nodup_append.mpr ⟨waking.wfi, List.pairwise_singleton _ task, ?_⟩
    rintro other hm _ he rfl
    rw [List.mem_singleton] at he
    exact notWaiting (he ▸ hm)
  · intro other sleeping hm
    rcases List.mem_append.mp hm with old | new
    · exact waking.links other sleeping old
    · rw [List.mem_singleton.mp new] at sleeping
      exact notSleeping sleeping

theorem Waking.resumeTask (free : executor.nodeFree task = true)
    (notReady : task ∉ executor.readyQueue) (fuel : Nat)
    : Meets (fun after => Resumes executor after ∧ after.awake task = true) Fault.Loose
        (executor.resumeTask (fuel + 1) task) := by
  obtain ⟨notLinked, notHead⟩
    : executor.pendingReadyQueue.isLinked task = false
      ∧ executor.pendingReadyQueue.loadHead () ≠ .item task := by
    simpa [nodeFree] using free
  obtain ⟨memory, pushed, intact, linked⟩ := waking.intact.pushBack notLinked notHead fuel
  unfold Executor.resumeTask
  rw [pushed]
  refine ⟨⟨⟨intact, waking.ready, ?_, waking.sleep, waking.wfi, waking.links⟩, ?_⟩, ?_⟩
  · intro other pending
    rcases (linked other).mp pending with old | rfl
    · exact waking.apart other old
    · exact notReady
  · intro other was
    refine awake_iff.mpr ((awake_iff.mp was).imp_left fun pending => ?_)
    exact (linked other).mpr (.inl pending)
  · exact awake_iff.mpr (.inl ((linked task).mpr (.inr rfl)))

end

end Executor

end Scars
