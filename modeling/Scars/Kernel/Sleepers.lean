import Scars.Kernel.QueueRefinement
import Scars.Kernel.Invariants

/-! The sleep queue and the alarm.
The queue is in deadline order and the alarm goes off no later than the first deadline. Most
operations at most take sleepers out, which keeps both; the others program the alarm anew.
-/

namespace Scars.Kernel

open Runs OrderedInsert

variable {kernel kernel' : Kernel} {thread : ThreadId} {suspendable : Suspendable}
  {priorities : PriorityStatus × PriorityStatus} {handler : HandlerId}

/-- The deadline of a sleeper, which always has one. -/
def wakeupTime (kernel : Kernel) (suspendable : Suspendable) : Instant :=
  (kernel.deadline suspendable).getD 0

/-- The sleep queue is sorted by deadline and the alarm is not late for any sleeper. -/
structure Timed (kernel : Kernel) : Prop where
  dated : ∀ sleeper ∈ kernel.sleepQueue, (kernel.deadline sleeper).isSome = true
  sorted
    : kernel.sleepQueue.Pairwise fun first second =>
        kernel.wakeupTime first ≤ kernel.wakeupTime second
  alarmed
    : ∀ sleeper ∈ kernel.sleepQueue,
        ∃ alarm, kernel.alarm = some alarm ∧ alarm ≤ kernel.wakeupTime sleeper

/-- The queue of pending executor polls, from which nothing was taken yet, links the handlers
of a list.
-/
def PollsPending (kernel : Kernel) (handlers : List HandlerId) : Prop :=
  Represents kernel.polls ⟨fun _ => handlers, fun _ => none⟩

/-- The poll queue is intact. -/
def PollsIntact (kernel : Kernel) : Prop := ∃ handlers, kernel.PollsPending handlers

/-- An operation at most takes sleepers out and leaves the alarm alone. -/
structure Thins (kernel kernel' : Kernel) : Prop where
  sleepers : kernel'.sleepQueue.Sublist kernel.sleepQueue
  deadline : ∀ sleeper ∈ kernel'.sleepQueue, kernel'.deadline sleeper = kernel.deadline sleeper
  alarm : kernel'.alarm = kernel.alarm
  polls : kernel.PollsIntact → kernel'.PollsIntact

theorem Thins.trans {first second third : Kernel} (left : first.Thins second)
    (right : second.Thins third)
    : first.Thins third where
  sleepers := right.sleepers.trans left.sleepers
  deadline sleeper hm :=
    (right.deadline sleeper hm).trans
      (left.deadline sleeper (right.sleepers.subset hm))
  alarm := right.alarm.trans left.alarm
  polls := right.polls ∘ left.polls

theorem Thins.of_eq
    (he
      : (kernel'.sleepQueue, kernel'.deadline, kernel'.alarm, kernel'.polls)
        = (kernel.sleepQueue, kernel.deadline, kernel.alarm, kernel.polls))
    : kernel.Thins kernel' := by
  obtain ⟨sleepers, deadline, alarm, polls⟩ := by simpa only [Prod.mk.injEq] using he
  refine ⟨by rw [sleepers], fun _ _ => by rw [deadline], alarm, ?_⟩
  unfold PollsIntact PollsPending
  rw [polls]
  exact id

theorem Thins.refl (kernel : Kernel) : kernel.Thins kernel := .of_eq rfl

theorem Adjusts.thins (adjusts : kernel.Adjusts kernel') : kernel.Thins kernel' := by
  obtain ⟨_, _, _, _, _, rfl⟩ := adjusts
  exact .of_eq rfl

theorem Timed.sublist (timed : kernel.Timed)
    (sleepers : kernel'.sleepQueue.Sublist kernel.sleepQueue)
    (deadline
      : ∀ sleeper ∈ kernel'.sleepQueue, kernel'.deadline sleeper = kernel.deadline sleeper)
    (alarm : kernel'.alarm = kernel.alarm)
    : kernel'.Timed := by
  have sameTime {sleeper : Suspendable} (hm : sleeper ∈ kernel'.sleepQueue)
      : kernel'.wakeupTime sleeper = kernel.wakeupTime sleeper := by
    unfold wakeupTime
    rw [deadline sleeper hm]
  constructor
  · intro sleeper hm
    rw [deadline sleeper hm]
    exact timed.dated sleeper (sleepers.subset hm)
  · refine List.Pairwise.imp_of_mem ?_ (timed.sorted.sublist sleepers)
    intro first second firstMember secondMember before
    rwa [sameTime firstMember, sameTime secondMember]
  · intro sleeper hm
    rw [alarm, sameTime hm]
    exact timed.alarmed sleeper (sleepers.subset hm)

theorem Timed.thins (timed : kernel.Timed) (thins : kernel.Thins kernel') : kernel'.Timed :=
  timed.sublist thins.sleepers thins.deadline thins.alarm

/-- The alarm programmed from the head of a sorted queue is not late for any sleeper. -/
theorem timed_reprogramAlarm
    (dated : ∀ sleeper ∈ kernel.sleepQueue, (kernel.deadline sleeper).isSome = true)
    (sorted
      : kernel.sleepQueue.Pairwise fun first second =>
          kernel.wakeupTime first ≤ kernel.wakeupTime second)
    : kernel.reprogramAlarm.Timed := by
  rw [reprogramAlarm_eq]
  refine ⟨dated, sorted, ?_⟩
  cases hq : kernel.sleepQueue with
  | nil => simp
  | cons head rest =>
      intro sleeper hm
      have first := dated head (by simp [hq])
      obtain ⟨alarm, due⟩ := Option.isSome_iff_exists.mp first
      refine ⟨alarm, by simp [due], ?_⟩
      have earliest : kernel.wakeupTime head = alarm := by simp [wakeupTime, due]
      rw [hq] at sorted
      rcases List.mem_cons.mp hm with rfl | later
      · exact Nat.le_of_eq earliest.symm
      · exact earliest ▸ List.rel_of_pairwise_cons sorted later

theorem Timed.withSleeper (timed : kernel.Timed)
    (dated : (kernel.deadline suspendable).isSome = true)
    : (kernel.withSleeper suspendable).reprogramAlarm.Timed := by
  obtain ⟨time, due⟩ := Option.isSome_iff_exists.mp dated
  have passes {other : Suspendable} (hm : other ∈ kernel.sleepQueue)
      : deadlineLe (kernel.deadline other) (kernel.deadline suspendable)
        = decide (kernel.wakeupTime other ≤ kernel.wakeupTime suspendable) := by
    obtain ⟨otherTime, otherDue⟩ := Option.isSome_iff_exists.mp (timed.dated other hm)
    simp [deadlineLe, wakeupTime, due, otherDue]
  apply timed_reprogramAlarm
  · intro sleeper hm
    rcases mem_insertPast.mp hm with rfl | hq
    · exact dated
    · exact timed.dated sleeper hq
  · refine pairwise_insertPast ?_ timed.sorted ?_ ?_
    · exact fun left right => Nat.le_trans left right
    · intro other hm passing
      rw [passes hm] at passing
      exact of_decide_eq_true passing
    · intro other hm failing
      rw [passes hm] at failing
      exact Nat.le_of_lt (Nat.not_le.mp (of_decide_eq_false failing))

theorem thins_insertToReadyQueue (hi : kernel.insertToReadyQueue thread = .ok kernel')
    : kernel.Thins kernel' := by
  rcases insertToReadyQueue_ok hi with ⟨-, rfl⟩ | ⟨-, -, rfl⟩
  · exact .of_eq rfl
  · exact .of_eq rfl

theorem thins_insertToBlockedQueue (hi : kernel.insertToBlockedQueue thread = .ok kernel')
    : kernel.Thins kernel' := by
  obtain ⟨-, -, rfl⟩ := insertToBlockedQueue_ok hi
  exact .of_eq rfl

theorem thins_insertToSuspendedList (hi : kernel.insertToSuspendedList thread = .ok kernel')
    : kernel.Thins kernel' := by
  obtain ⟨-, -, rfl⟩ := insertToSuspendedList_ok hi
  exact .of_eq rfl

theorem thins_insertToWaitQueue {queue : WaitQueueId}
    (hi : kernel.insertToWaitQueue queue suspendable = .ok kernel')
    : kernel.Thins kernel' := by
  unfold insertToWaitQueue at hi
  split at hi
  · cases hi
  · cases hi; exact .of_eq rfl

theorem PollsPending.setPendingExecutorPoll {handlers : List HandlerId}
    (pending : kernel.PollsPending handlers) (fuel : Nat) (handler : HandlerId)
    : ∃ polls,
        kernel.setPendingExecutorPoll (fuel + 1) handler = .ok { kernel with polls := polls }
        ∧ { kernel with polls := polls }.PollsPending
          (if handler ∈ handlers then handlers else handlers ++ [handler]) := by
  have linked := pending.owned handler
  simp only [exists_const] at linked
  unfold Kernel.setPendingExecutorPoll
  split
  next hq => exact ⟨kernel.polls, rfl, by rwa [if_pos (linked.mp hq)]⟩
  next free =>
    have absent : handler ∉ handlers := fun hq => free (linked.mpr hq)
    have unlinked : ∀ other,
        .item handler ∉ (⟨fun _ => handlers, fun _ => none⟩ : Fifos Unit HandlerId).ptrs other := by
      simpa [Fifos.mem_ptrs] using absent
    obtain ⟨after, pushed, hr⟩ := pending.pushBack unlinked
    refine ⟨after, by rw [pushExecutorPoll, pushed], ?_⟩
    rw [if_neg absent]
    have he
        : Fifos.push () handler ⟨fun _ => handlers, fun _ => none⟩
          = ⟨fun _ => handlers ++ [handler], fun _ => none⟩ := by
      simp only [Fifos.push, Function.update_eq_const_of_subsingleton]
      rfl
    rw [he] at hr
    exact hr

theorem thins_setPendingExecutorPoll {fuel : Nat}
    (pushed : kernel.setPendingExecutorPoll fuel handler = .ok kernel')
    : kernel.Thins kernel' := by
  obtain ⟨polls, rfl⟩ := setPendingExecutorPoll_ok pushed
  refine ⟨.refl _, fun _ _ => rfl, rfl, ?_⟩
  rintro ⟨handlers, pending⟩
  cases fuel with
  | zero =>
      unfold setPendingExecutorPoll pushExecutorPoll QueueMemory.pushBack QueueMemory.pushLoop
        at pushed
      split at pushed
      · obtain rfl : kernel.polls = polls := congrArg Kernel.polls (Except.ok.inj pushed)
        exact ⟨handlers, pending⟩
      · split at pushed
        next ran =>
          dsimp only at ran
          split at ran <;> cases ran
        · cases pushed
  | succ fuel =>
      obtain ⟨after, again, kept⟩ := pending.setPendingExecutorPoll fuel handler
      obtain rfl : polls = after :=
        congrArg Kernel.polls (Except.ok.inj (pushed.symm.trans again))
      exact ⟨_, kept⟩

theorem routine_thins : Routine Thins where
  refl := .refl
  trans := .trans
  readies _ _ shorter hi := by
    refine Thins.trans ?_ (thins_insertToReadyQueue hi)
    exact ⟨shorter, fun _ _ => rfl, rfl, id⟩
  pops _ := .of_eq rfl
  switches _ _ := .of_eq rfl
  sleeps shorter := ⟨shorter, fun _ _ => rfl, rfl, id⟩
  polls := thins_setPendingExecutorPoll

end Scars.Kernel
