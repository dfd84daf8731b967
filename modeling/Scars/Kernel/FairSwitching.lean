import Scars.Kernel.Holders

/-! Which calls respect the lock ceiling, and who runs after them.
`reschedule` compares with the current thread only; a call meets the condition if it switches above
the locks of the current thread and of those that stay blocked.
-/

namespace Scars.Kernel

open Runs OrderedInsert ThreadExecutionState

variable {kernel kernel' : Kernel} {thread : ThreadId} {now : Instant} {fuel : Nat}

/-- The threads whose sleep ends at `now`. -/
def dueThreads (kernel : Kernel) (now : Instant) : List ThreadId :=
  (kernel.dueSleepers now).filterMap fun
    | .thread thread => some thread
    | .interrupt _ => none

/-- The threads a reschedule at `now` finds ready. -/
def foundReady (kernel : Kernel) (now : Instant) : List ThreadId :=
  kernel.readyQueue ++ kernel.dueThreads now

/-- The threads whose locks count at `now`: the current one and those that stay blocked. -/
def keptWaiting (kernel : Kernel) (now : Instant) : List ThreadId :=
  kernel.currentThread
    :: kernel.blockedList.filter fun thread => !(kernel.dueThreads now).contains thread

/-- The thread's active priority is strictly above all locks that count. -/
def isAboveLocks (kernel : Kernel) (now : Instant) (thread : ThreadId) : Bool :=
  (kernel.keptWaiting now).all fun holder =>
    decide (kernel.lockKey holder ≤ (kernel.priority thread).rank)

/-- If some ready thread may replace the current one, then one of them is above the locks. -/
def reschedulesAboveLocks (kernel : Kernel) (kind : Nat) (now : Instant) : Bool :=
  !(kernel.foundReady now).any (kernel.mayReplaceCurrent kind)
    || (kernel.foundReady now).any (kernel.isAboveLocks now)

/-- The calls under which ceiling locks exclude each other. -/
def respectsLocks (kernel : Kernel) : Op → Bool
  | .reschedule kind now => kernel.reschedulesAboveLocks kind now
  | .executePendingReschedule now =>
      kernel.pendingRescheduleKind == RESCHEDULE_KIND_NONE
        || kernel.reschedulesAboveLocks kernel.pendingRescheduleKind now
  | .enterSection _ => kernel.currentThread != IDLE_THREAD_ID
  | .suspend _ => false
  | _ => true

theorem mem_dueThreads
    : thread ∈ kernel.dueThreads now ↔ .thread thread ∈ kernel.dueSleepers now := by
  unfold dueThreads
  rw [List.mem_filterMap]
  constructor
  · rintro ⟨sleeper, hm, isThread⟩
    cases sleeper with
    | thread other => cases isThread; exact hm
    | interrupt handler => cases isThread
  · exact fun hm => ⟨_, hm, rfl⟩

theorem mem_foundReady
    : thread ∈ kernel.foundReady now
      ↔ thread ∈ kernel.readyQueue ∨ .thread thread ∈ kernel.dueSleepers now := by
  rw [foundReady, List.mem_append, mem_dueThreads]

theorem mem_keptWaiting
    : thread ∈ kernel.keptWaiting now
      ↔ thread = kernel.currentThread
        ∨ thread ∈ kernel.blockedList ∧ .thread thread ∉ kernel.dueSleepers now := by
  simp [keptWaiting, mem_dueThreads]

/-- What the condition on a reschedule provides, when some thread may be switched to. -/
theorem exists_isAboveLocks {kind : Nat} (respects : kernel.reschedulesAboveLocks kind now = true)
    (found : thread ∈ kernel.foundReady now)
    (replaces : kernel.mayReplaceCurrent kind thread = true)
    : ∃ urgent ∈ kernel.foundReady now,
        ∀ holder ∈ kernel.keptWaiting now,
          kernel.lockKey holder ≤ (kernel.priority urgent).rank := by
  have mayReplace : (kernel.foundReady now).any (kernel.mayReplaceCurrent kind) = true :=
    List.any_eq_true.mpr ⟨thread, found, replaces⟩
  rw [reschedulesAboveLocks, mayReplace, Bool.not_true, Bool.false_or, List.any_eq_true]
    at respects
  obtain ⟨urgent, hm, above⟩ := respects
  exact ⟨urgent, hm, by simpa [isAboveLocks] using above⟩

/-- The current thread stays the same, or gives way to the idle thread or to one that
outranks all holders.
-/
def YieldsFairly (kernel kernel' : Kernel) : Prop :=
  kernel'.currentThread = kernel.currentThread
  ∨ kernel'.currentThread = IDLE_THREAD_ID ∨ kernel.Outranks kernel'.currentThread

theorem resumeThread_current (resumed : kernel.resumeThread thread = .ok kernel')
    : kernel'.currentThread = kernel.currentThread := by
  obtain ⟨moved, rfl, moves⟩ := resumeThread_ok resumed
  refine adjusts_requestIfHigher.sameLists.current.trans ?_
  rcases moves with ⟨-, -, hi⟩ | ⟨-, -, hi⟩ | ⟨-, hi⟩ | ⟨-, rfl⟩
  · rw [leaveSleepQueue_eq] at hi
    exact (insertToReadyQueue_frame hi).2.1
  · exact (insertToReadyQueue_frame hi).2.1
  · exact (insertToReadyQueue_frame hi).2.1
  · rfl

theorem startThread_current (started : kernel.startThread thread = .ok kernel')
    : kernel'.currentThread = kernel.currentThread := by
  unfold startThread at started
  split at started
  · cases started
  · have kept := resumeThread_current started
    exact kept

theorem Consistent.wakeupNext_current (hc : kernel.Consistent)
    (woken : kernel.wakeupNext fuel = .ok kernel')
    : kernel'.currentThread = kernel.currentThread := by
  unfold Kernel.wakeupNext at woken
  split at woken
  · cases woken; rfl
  next hq => exact (hc.wakeupHead_effect hq woken).2.2.1

section

variable (sound : kernel.Sound)
include sound

section

variable (separated : kernel.Separated)
include separated

theorem Sound.waitCurrentThread_fair {queue : WaitQueueId} {ceiling : Priority}
    (waited : kernel.waitCurrentThread queue ceiling = .ok kernel')
    : kernel.YieldsFairly kernel' := by
  obtain ⟨-, enqueued, hi, blocks⟩ := waitCurrentThread_ok waited
  refine Or.inr ?_
  rw [(blockThread_frame blocks).1, (sameLists_enqueued hi).current]
  exact sound.handOver_outranks separated

theorem Sound.blocks_fair {timeout : Option Instant}
    (blocks : kernel.handOver.2.blockThread kernel.currentThread timeout = .ok kernel')
    : kernel.YieldsFairly kernel' := by
  refine Or.inr ?_
  rw [(blockThread_frame blocks).1]
  exact sound.handOver_outranks separated

theorem Sound.waitCurrentThreadEvent_fair {events : Events} {deadline : Option Instant}
    {result : Events × Kernel} (waited : kernel.waitCurrentThreadEvent events deadline = .ok result)
    : kernel.YieldsFairly result.2 := by
  obtain ⟨-, -, blocks⟩ := waitCurrentThreadEvent_ok waited
  have he : kernel.SameLists (kernel.requested events).2 := sameLists_requested events
  have scheduling : kernel.Scheduling (kernel.requested events).2 := .of_eq rfl
  have requested := sound.scheduling scheduling (sound.consistent.congr he)
  have separated := separated.scheduling scheduling he.leaves (Or.inl he.current)
  rcases blockUnlessReceived_ok blocks with ⟨-, blocks⟩ | ⟨-, unchanged⟩
  · refine (requested.blocks_fair separated blocks).imp id (Or.imp id fun outranks => ?_)
    exact outranks.congr scheduling.thread.symm
  · rw [unchanged]
    exact Or.inl rfl

/-- A reschedule above the locks switches to a thread that outranks all holders. Witness:
the head of the ready queue is at least as urgent as the thread the condition provides.
-/
theorem Sound.reschedule_fair {fuel kind : Nat}
    (respects : kernel.reschedulesAboveLocks kind now = true)
    (rescheduled : kernel.reschedule fuel kind now = .ok kernel')
    : kernel.YieldsFairly kernel' := by
  obtain ⟨awake, woken, switched⟩ := bind_ok.mp rescheduled
  have scheduling : kernel.Scheduling awake := scheduling_wakeDue woken
  have wakes := sound.consistent.wakeDue_effect woken
  have awakeSound := sound.scheduling scheduling (sound.consistent.wakeDue woken)
  have leaves := (steady_leaves passing_dormant).wakeDue (fun _ _ => .of_eq rfl) woken
  have awakeSeparated :=
    separated.scheduling scheduling leaves (Or.inl wakes.current)
  rcases switchToNext_ok switched with
    ⟨-, rfl⟩ | ⟨head, rest, hq, accepted, ⟨-, hi⟩ | ⟨he, rfl⟩⟩
  · exact Or.inl wakes.current
  · have switchedTo : kernel'.currentThread = head := (insertToReadyQueue_frame hi).2.1
    have replaces : kernel.mayReplaceCurrent kind head = true := by
      simpa only [mayReplaceCurrent, scheduling.priority, wakes.current] using accepted
    have found := mem_foundReady.mpr ((wakes.ready head).mp (by simp [hq]))
    obtain ⟨urgent, foundUrgent, above⟩ := exists_isAboveLocks respects found replaces
    have atMost := awakeSound.ordered.rank_le_head hq urgent
      ((wakes.ready urgent).mpr (mem_foundReady.mp foundUrgent))
    have locks (holder : ThreadId) : awake.lockKey holder = kernel.lockKey holder :=
      lockKey_congr (congrFun scheduling.thread holder)
    have ceiling : awake.ceilingRank ≤ (awake.priority head).rank := by
      rw [scheduling.priority] at atMost ⊢
      refine ceilingRank_le ?_ fun holder blocked => ?_
      · rw [locks]
        exact Nat.le_trans (above _ (mem_keptWaiting.mpr (Or.inl wakes.current))) atMost
      · rw [locks]
        have kept := mem_keptWaiting.mpr (Or.inr ((wakes.blocked holder).mp blocked))
        exact Nat.le_trans (above holder kept) atMost
    refine Or.inr (Or.inr ?_)
    rw [switchedTo]
    exact (awakeSound.outranks_head awakeSeparated hq ceiling).congr
      scheduling.thread.symm
  · exact Or.inl wakes.current

theorem Sound.executePendingReschedule_fair
    (respects : kernel.respectsLocks (.executePendingReschedule now) = true)
    (executed : kernel.executePendingReschedule fuel now = .ok kernel')
    : kernel.YieldsFairly kernel' := by
  unfold executePendingReschedule at executed
  dsimp only at executed
  split at executed
  next => cases executed; exact Or.inl rfl
  next pending =>
    have scheduling
        : kernel.Scheduling { kernel with pendingRescheduleKind := RESCHEDULE_KIND_NONE } :=
      .of_eq rfl
    have cleared := sound.scheduling scheduling
      (sound.consistent.congr (by constructor <;> rfl))
    have separated := separated.scheduling scheduling (.of_eq rfl) (Or.inl rfl)
    have above : kernel.reschedulesAboveLocks kernel.pendingRescheduleKind now = true := by
      simpa [respectsLocks, pending] using respects
    refine (cleared.reschedule_fair separated above executed).imp id
      (Or.imp id fun outranks => ?_)
    exact outranks.congr rfl

/-- By cases on the operation: only blocking and rescheduling change the current thread. -/
theorem Sound.perform_fair {op : Op} (respects : kernel.respectsLocks op = true)
    (hp : kernel.perform fuel op = .ok kernel')
    : kernel.YieldsFairly kernel' := by
  cases op with
  | suspend maybeThread => cases respects
  | start thread => exact Or.inl (startThread_current hp)
  | resume thread => exact Or.inl (resumeThread_current hp)
  | wakeupNext => exact Or.inl (sound.consistent.wakeupNext_current hp)
  | reschedule kind now => exact sound.reschedule_fair separated respects hp
  | executePendingReschedule now =>
      exact sound.executePendingReschedule_fair separated respects hp
  | wakeupScheduler | yieldCurrentThread => cases hp; exact Or.inl rfl
  | delayUntil wakeupTime =>
      exact sound.blocks_fair separated (delayThreadUntil_ok hp).2
  | wait queue ceiling => exact sound.waitCurrentThread_fair separated hp
  | waitEvent events deadline =>
      obtain ⟨result, waited, rfl⟩ := bind_pure_ok.mp hp
      exact sound.waitCurrentThreadEvent_fair separated waited
  | lock _ | unlock _ | enterSection _ | leaveSection | condReschedule =>
      exact Or.inl (adjusts_perform hp trivial).sameLists.current
  | notifyNext queue =>
      obtain ⟨waitQueue, waitOwner, rfl | ⟨thread, resumed⟩⟩ := notifyNext_ok hp
      · exact Or.inl rfl
      · have kept := resumeThread_current resumed
        exact Or.inl kept
  | sendEvents thread events =>
      obtain ⟨stored, rfl | resumed⟩ := sendEvents_ok hp
      · exact Or.inl rfl
      · have kept := resumeThread_current resumed
        exact Or.inl kept
  | scheduleInterruptWakeup handler wakeupTime =>
      obtain ⟨-, alarm, rfl⟩ := scheduleInterruptWakeup_ok hp
      exact Or.inl rfl
  | resumeInterrupt handler =>
      obtain ⟨polls, rfl⟩ := resumeInterrupt_ok hp
      exact Or.inl rfl

end

end

end Scars.Kernel
