import Scars.Kernel.PriorityOrder

/-! Runs in which every pending reschedule is executed keep the most urgent thread running.
-/

namespace Scars.Kernel

open Runs OrderedInsert Function PriorityStatus

variable {kernel kernel' : Kernel} {thread : ThreadId} {fuel : Nat}

/-- Once the current thread has handed over and is blocked, its own locks count among the
blocked ones, so no ready thread that stayed behind is above the ceiling.
-/
theorem Sound.handOver_noInversion (sound : kernel.Sound) (threads : kernel'.thread = kernel.thread)
    (current : kernel'.currentThread = kernel.handOver.2.currentThread)
    (ready : kernel'.readyQueue = kernel.handOver.2.readyQueue)
    (blocked
      : ∀ other,
          other ∈ kernel'.blockedList ↔ other = kernel.currentThread ∨ other ∈ kernel.blockedList)
    (ordered : kernel'.Ordered)
    : kernel'.NoInversion := by
  have priorities : kernel'.priority = kernel.priority := by
    funext other
    simp only [Kernel.priority, threads]
  have locks : kernel'.lockKey = kernel.lockKey := by
    funext other
    exact lockKey_congr (congrFun threads other)
  have handed : kernel.handOver.2.currentThread = kernel.takeNextAboveLocks.1
      ∧ kernel.handOver.2.readyQueue = kernel.takeNextAboveLocks.2.readyQueue := ⟨rfl, rfl⟩
  rw [handed.1] at current
  rw [handed.2] at ready
  rcases kernel.takeNextAboveLocks_cases with ⟨head, rest, hq, -, taken⟩ | ⟨refused, taken⟩
  · refine noInversion_of_highest fun thread hm => ?_
    rw [ready, taken] at hm
    rw [current, taken, priorities]
    refine sound.ordered.rank_le_head hq thread ?_
    rw [hq]
    exact List.mem_cons_of_mem head hm
  · have below : ∀ thread ∈ kernel.readyQueue,
        (kernel.priority thread).rank ≤ kernel.locksCeiling.rank := by
      refine sound.ordered.rank_le_of_head fun head first => ?_
      have notAbove := mt Priority.lt_iff.mpr (refused head first)
      omega
    have ceiling : kernel.ceilingRank ≤ kernel'.ceilingRank := by
      refine ceilingRank_le ?_ fun other hm => ?_
      · rw [← locks]
        exact ordered.lockKey_le_ceiling (Or.inr ((blocked _).mpr (Or.inl rfl)))
      · rw [← locks]
        exact ordered.lockKey_le_ceiling (Or.inr ((blocked other).mpr (Or.inr hm)))
    have default := rank_unwrapOrDefault kernel.locksPriorityCeiling
    refine noInversion_iff.mpr fun thread hm => ?_
    rw [ready, taken] at hm
    have bound := below thread hm
    rw [priorities]
    simp only [locksCeiling] at bound
    simp only [ceilingRank] at ceiling ⊢
    omega

/-- A thread that is resumed without a request is covered by the current thread or the
ceiling, and so is every thread its own locks had kept waiting.
-/
theorem Sound.resumeThread_noInversion (sound : kernel.Sound) (before : kernel.NoInversion)
    (resumed : kernel.resumeThread thread = .ok kernel')
    (settled : kernel'.pendingRescheduleKind = RESCHEDULE_KIND_NONE)
    : kernel'.NoInversion := by
  have scheduling := scheduling_resumeThread resumed
  obtain ⟨moved, rfl, moves⟩ := resumeThread_ok resumed
  -- no request was made, so the comparison at the end failed
  have covered : ¬ (moved.priority moved.currentThread).maxValid moved.locksPriorityCeiling
      < moved.priority thread ∧ moved.requestIfHigher thread = moved := by
    unfold requestIfHigher at settled ⊢
    dsimp only at settled ⊢
    split at settled
    · simp [setPendingReschedule, RESCHEDULE_KIND_YIELD_TO_HIGHER, RESCHEDULE_KIND_NONE,
        Nat.or_eq_zero_iff] at settled
    next notHigher => exact ⟨notHigher, by simp [notHigher]⟩
  obtain ⟨notHigher, unrequested⟩ := covered
  rw [unrequested] at scheduling ⊢
  have current : moved.currentThread = kernel.currentThread
      ∧ (∀ other ∈ moved.readyQueue, other = thread ∨ other ∈ kernel.readyQueue)
      ∧ ∀ other ∈ kernel.blockedList, other = thread ∨ other ∈ moved.blockedList := by
    rcases moves with ⟨-, -, hi⟩ | ⟨-, -, hi⟩ | ⟨-, hi⟩ | ⟨-, rfl⟩
    · rw [leaveSleepQueue_eq] at hi
      obtain ⟨-, current, blocked, members⟩ := insertToReadyQueue_frame hi
      refine ⟨current, members, fun other hm => ?_⟩
      rw [blocked]
      by_cases he : other = thread
      · exact Or.inl he
      · exact Or.inr ((List.mem_erase_of_ne he).mpr hm)
    · obtain ⟨-, current, blocked, members⟩ := insertToReadyQueue_frame hi
      exact ⟨current, members, fun other hm => Or.inr (blocked ▸ hm)⟩
    · obtain ⟨-, current, blocked, members⟩ := insertToReadyQueue_frame hi
      exact ⟨current, members, fun other hm => Or.inr (blocked ▸ hm)⟩
    · exact ⟨rfl, fun _ => Or.inr, fun _ => Or.inr⟩
  obtain ⟨current, members, blocked⟩ := current
  have ordered := scheduling.ordered sound.ordered
  have locks (other : ThreadId) : moved.lockKey other = kernel.lockKey other :=
    lockKey_congr (congrFun scheduling.thread other)
  have threadCovered := Priority.rank_maxValid (moved.priority moved.currentThread)
    moved.locksPriorityCeiling
  rw [Priority.lt_iff] at notHigher
  have threadLocks := lockKey_le_priority moved thread
  have ceiling : kernel.ceilingRank
      ≤ max moved.ceilingRank ((moved.priority moved.currentThread).rank + 1) := by
    refine ceilingRank_le ?_ fun other hm => ?_
    · have := ordered.lockKey_le_ceiling (Or.inl (rfl : moved.currentThread = _))
      rw [← locks, ← current]
      omega
    · rcases blocked other hm with rfl | still
      · rw [← locks]
        simp only [ceilingRank]
        omega
      · have := ordered.lockKey_le_ceiling (Or.inr still)
        rw [← locks]
        omega
  refine noInversion_iff.mpr fun other hm => ?_
  rcases members other hm with rfl | earlier
  · simp only [ceilingRank]
    omega
  · have old := noInversion_iff.mp before other earlier
    rw [← scheduling.priority, ← current] at old
    omega

/-- Raising the current thread's lock priorities can only lift the allowance of the ready
threads, which keep their own priorities.
-/
theorem Sound.raise_noInversion (sound : kernel.Sound) (before : kernel.NoInversion)
    {raw : RawThread} (he : kernel.SameLists kernel')
    (threads : kernel'.thread = update kernel.thread kernel.currentThread raw)
    (base : raw.basePriority = (kernel.thread kernel.currentThread).basePriority)
    (raised : kernel.lockKey kernel.currentThread ≤ kernel'.lockKey kernel.currentThread)
    : kernel'.NoInversion := by
  obtain ⟨notReady, notBlocked⟩ := sound.consistent.current_unlisted
  have ordered := sound.ordered.updateCurrent sound.consistent he threads
  have untouched {other : ThreadId} (hne : other ≠ kernel.currentThread)
      : kernel'.thread other = kernel.thread other := by
    rw [threads, update_of_ne hne]
  have lifted : (kernel.priority kernel.currentThread).rank
      ≤ (kernel'.priority kernel.currentThread).rank := by
    have old := Priority.rank_maxValid (kernel.thread kernel.currentThread).basePriority
      (kernel.thread kernel.currentThread).lockPriority
    have new := Priority.rank_maxValid (kernel'.thread kernel.currentThread).basePriority
      (kernel'.thread kernel.currentThread).lockPriority
    have sameBase : (kernel'.thread kernel.currentThread).basePriority
        = (kernel.thread kernel.currentThread).basePriority := by
      rw [threads, update_self, base]
    rw [sameBase] at new
    simp only [lockKey, Kernel.lockPriority] at raised
    simp only [Kernel.priority, RawThread.priority, sameBase]
    omega
  have ceiling : kernel.ceilingRank ≤ kernel'.ceilingRank := by
    refine ceilingRank_le ?_ fun other hm => ?_
    · have := ordered.lockKey_le_ceiling (Or.inl he.current.symm)
      omega
    · have hne : other ≠ kernel.currentThread := fun isCurrent =>
        notBlocked (isCurrent ▸ hm)
      rw [← lockKey_congr (untouched hne)]
      exact ordered.lockKey_le_ceiling (Or.inr (he.blocked ▸ hm))
  refine noInversion_iff.mpr fun other hm => ?_
  rw [he.ready] at hm
  have hne : other ≠ kernel.currentThread := fun isCurrent =>
    notReady (isCurrent ▸ hm)
  have old := noInversion_iff.mp before other hm
  have samePriority : kernel'.priority other = kernel.priority other := by
    simp only [Kernel.priority, untouched hne]
  rw [he.current, samePriority]
  omega

/-- After a check that requested nothing, the current thread is at least as urgent as every
ready one.
-/
theorem condReschedule_noInversion (ordered : kernel.Ordered)
    (settled : kernel.condReschedule.pendingRescheduleKind = RESCHEDULE_KIND_NONE)
    : kernel.condReschedule.NoInversion := by
  have he : kernel.SameLists kernel.condReschedule := adjusts_condReschedule.sameLists
  have scheduling : kernel.Scheduling kernel.condReschedule := scheduling_condReschedule
  refine noInversion_of_highest ?_
  rw [he.ready, he.current, scheduling.priority]
  refine ordered.rank_le_of_head fun head first => ?_
  unfold condReschedule at settled
  split at settled
  next empty => simp [empty] at first
  next found rest hq =>
    have isHead : found = head := by simpa [hq] using first
    subst isHead
    split at settled
    · simp [setPendingReschedule, RESCHEDULE_KIND_YIELD_TO_HIGHER, RESCHEDULE_KIND_NONE,
        Nat.or_eq_zero_iff] at settled
    next notHigher =>
      have := mt Priority.lt_iff.mpr notHigher
      omega

theorem NoInversion.congr (before : kernel.NoInversion) (threads : kernel'.thread = kernel.thread)
    (current : kernel'.currentThread = kernel.currentThread)
    (ready : kernel'.readyQueue = kernel.readyQueue)
    (blocked : kernel'.blockedList = kernel.blockedList)
    : kernel'.NoInversion := by
  simpa only [NoInversion, Kernel.priority, locksPriorityCeiling, Kernel.lockPriority, threads,
    current, ready, blocked] using before

/-- The first scoped lock after an acquisition has at least the ceiling of the one before. -/
theorem ownedStatus_acquiredLocks (kernel : Kernel) (lock : LockId)
    : (kernel.ownedStatus (kernel.thread kernel.currentThread).scopedLocks).rank
      ≤ (kernel.ownedStatus (kernel.acquiredLocks lock)).rank := by
  unfold acquiredLocks
  cases (kernel.thread kernel.currentThread).scopedLocks with
  | nil => simp [ownedStatus]
  | cons head rest =>
      unfold insertPast
      split
      next => exact Nat.le_refl _
      next notAbove =>
        have := mt Priority.lt_iff.mpr (of_decide_eq_false (eq_false_of_ne_true notAbove))
        simp only [ownedStatus, rank_valid]
        omega

section

variable (sound : kernel.Sound)
include sound

theorem Sound.lockScoped_noInversion (before : kernel.NoInversion) {lock : LockId}
    (locked : kernel.lockScoped lock = .ok kernel')
    : kernel'.NoInversion := by
  obtain ⟨-, -, -, threads, -⟩ := lockScoped_ok locked
  refine sound.raise_noInversion before (adjusts_lockScoped locked).sameLists threads rfl ?_
  have grown := ownedStatus_acquiredLocks kernel lock
  have owned := (sound.locks kernel.currentThread).owned
  simp only [lockKey, Kernel.lockPriority, threads, update_self, RawThread.lockPriority,
    withScopedLocks, rank_max, owned]
  omega

theorem Sound.enterSection_noInversion (before : kernel.NoInversion) (ceiling : Priority)
    : (kernel.enterSection ceiling).NoInversion := by
  refine sound.raise_noInversion before (adjusts_enterSection ceiling).sameLists
    (enterSection_thread ceiling) rfl ?_
  simp only [lockKey, Kernel.lockPriority, enterSection_thread, update_self,
    RawThread.lockPriority, withSection, rank_max]
  omega

theorem Sound.waitCurrentThread_noInversion {queue : WaitQueueId} {ceiling : Priority}
    (waited : kernel.waitCurrentThread queue ceiling = .ok kernel')
    : kernel'.NoInversion := by
  have scheduling := scheduling_waitCurrentThread waited
  obtain ⟨-, enqueued, hi, blocks⟩ := waitCurrentThread_ok waited
  obtain ⟨current, ready, blocked⟩ := blockThread_frame blocks
  have restored := sameLists_enqueued hi
  refine sound.handOver_noInversion scheduling.thread (current.trans restored.current)
    (ready.trans restored.ready) (fun other => ?_) (scheduling.ordered sound.ordered)
  rw [blocked, restored.blocked, handOver_blockedList]

theorem Sound.blocks_noInversion {timeout : Option Instant}
    (blocks : kernel.handOver.2.blockThread kernel.currentThread timeout = .ok kernel')
    : kernel'.NoInversion := by
  have scheduling := steady_scheduling.handOver.trans (steady_scheduling.blockThread blocks)
  obtain ⟨current, ready, blocked⟩ := blockThread_frame blocks
  refine sound.handOver_noInversion scheduling.thread current ready (fun other => ?_)
    (scheduling.ordered sound.ordered)
  rw [blocked, handOver_blockedList]

theorem Sound.waitCurrentThreadEvent_noInversion (before : kernel.NoInversion) {events : Events}
    {deadline : Option Instant} {result : Events × Kernel}
    (waited : kernel.waitCurrentThreadEvent events deadline = .ok result)
    : result.2.NoInversion := by
  obtain ⟨-, -, blocks⟩ := waitCurrentThreadEvent_ok waited
  have requested : (kernel.requested events).2.Sound :=
    sound.scheduling (.of_eq rfl)
      (sound.consistent.congr (sameLists_requested events))
  rcases blockUnlessReceived_ok blocks with ⟨-, blocks⟩ | ⟨-, he⟩
  · exact requested.blocks_noInversion blocks
  · rw [he]
    exact before.congr rfl rfl rfl rfl

end

/-- Operations other than suspending a thread and waking a single sleeper. -/
def KeepsUrgency : Op → Prop
  | .suspend _ => False
  | .wakeupNext => False
  | _ => True

/-- An operation that leaves no request behind keeps the order. Witness: cases on the
operation; those that lower a priority or add a ready thread end in a comparison that would
have made a request.
-/
theorem Sound.perform_noInversion (sound : kernel.Sound) (before : kernel.NoInversion) {op : Op}
    (permitted : KeepsUrgency op) (hp : kernel.perform fuel op = .ok kernel')
    (settled : kernel'.pendingRescheduleKind = RESCHEDULE_KIND_NONE)
    : kernel'.NoInversion := by
  cases op with
  | suspend maybeThread => exact permitted.elim
  | wakeupNext => exact permitted.elim
  | start thread =>
      simp only [Kernel.perform, Kernel.startThread] at hp
      split at hp
      · cases hp
      next created =>
        have started : (kernel.setState thread .started).Sound :=
          sound.scheduling (.of_eq rfl)
            (sound.consistent.markStarted (not_ne_iff.mp created))
        exact started.resumeThread_noInversion (before.congr rfl rfl rfl rfl) hp settled
  | resume thread => exact sound.resumeThread_noInversion before hp settled
  | reschedule kind now => exact noInversion_of_highest (sound.reschedule_highest hp)
  | executePendingReschedule now =>
      simp only [Kernel.perform, Kernel.executePendingReschedule] at hp
      split at hp
      · cases hp
        exact before.congr rfl rfl rfl rfl
      · have cleared : { kernel with pendingRescheduleKind := RESCHEDULE_KIND_NONE }.Sound :=
          sound.scheduling (.of_eq rfl)
            (sound.consistent.congr (by constructor <;> rfl))
        exact noInversion_of_highest (cleared.reschedule_highest hp)
  | wakeupScheduler | yieldCurrentThread => cases hp; exact before.congr rfl rfl rfl rfl
  | delayUntil wakeupTime => exact sound.blocks_noInversion (delayThreadUntil_ok hp).2
  | wait queue ceiling => exact sound.waitCurrentThread_noInversion hp
  | waitEvent events deadline =>
      obtain ⟨result, waited, rfl⟩ := bind_pure_ok.mp hp
      exact sound.waitCurrentThreadEvent_noInversion before waited
  | lock lock => exact sound.lockScoped_noInversion before hp
  | unlock lock =>
      rcases unlockScoped_ok hp with
        ⟨-, rfl⟩ | ⟨-, released, rfl, he, threads, -⟩
      · exact before
      · exact condReschedule_noInversion
          (sound.ordered.updateCurrent sound.consistent he threads) settled
  | enterSection ceiling =>
      cases hp
      exact sound.enterSection_noInversion before ceiling
  | leaveSection =>
      obtain ⟨innermost, rest, released, -, rfl, he, threads, -⟩ :=
        leaveSection_ok hp
      exact condReschedule_noInversion
        (sound.ordered.updateCurrent sound.consistent he threads) settled
  | condReschedule => cases hp; exact condReschedule_noInversion sound.ordered settled
  | notifyNext queue =>
      obtain ⟨waitQueue, waitOwner, rfl | ⟨thread, resumed⟩⟩ := notifyNext_ok hp
      · exact before.congr rfl rfl rfl rfl
      · have popped : { kernel with waitQueue := waitQueue, waitOwner := waitOwner }.Sound :=
          sound.scheduling (.of_eq rfl)
            (sound.consistent.congr (by constructor <;> rfl))
        exact popped.resumeThread_noInversion (before.congr rfl rfl rfl rfl) resumed settled
  | sendEvents thread events =>
      obtain ⟨stored, rfl | resumed⟩ := sendEvents_ok hp
      · exact before.congr rfl rfl rfl rfl
      · have stored : { kernel with events := stored }.Sound :=
          sound.scheduling (.of_eq rfl)
            (sound.consistent.congr (by constructor <;> rfl))
        exact stored.resumeThread_noInversion (before.congr rfl rfl rfl rfl) resumed settled
  | scheduleInterruptWakeup handler wakeupTime =>
      obtain ⟨-, alarm, rfl⟩ := scheduleInterruptWakeup_ok hp
      exact before.congr rfl rfl rfl rfl
  | resumeInterrupt handler =>
      obtain ⟨polls, rfl⟩ := resumeInterrupt_ok hp
      exact before.congr rfl rfl rfl rfl

/-- How a pending reschedule gets executed: when the outermost interrupt handler exits, or
by the yield that ends a thread's preemption lock.
-/
inductive Settling where
  | interruptExit
  | threadYield
  deriving DecidableEq, Repr

/-- Executes a reschedule if one is pending. -/
def settle (fuel : Nat) (way : Settling) (now : Instant) (kernel : Kernel)
    : Except Fault Kernel :=
  if kernel.pendingRescheduleKind = RESCHEDULE_KIND_NONE then
    .ok kernel
  else
    match way with
    | .interruptExit => kernel.executePendingReschedule fuel now
    | .threadYield => do
        let kernel ← kernel.perform fuel .yieldCurrentThread
        kernel.executePendingReschedule fuel now

/-- An operation, and the execution of what it left pending. -/
def performSettled (fuel : Nat) (kernel : Kernel) (event : Op × Settling × Instant)
    : Except Fault Kernel := do
  let kernel ← kernel.perform fuel event.1
  kernel.settle fuel event.2.1 event.2.2

theorem Sound.execute (sound : kernel.Sound) {now : Instant}
    (executed : kernel.executePendingReschedule fuel now = .ok kernel')
    : kernel'.Sound :=
  sound.scheduling (scheduling_executePendingReschedule executed)
    (sound.consistent.executePendingReschedule executed)

theorem Sound.execute_highest (sound : kernel.Sound) {now : Instant}
    (pending : kernel.pendingRescheduleKind ≠ RESCHEDULE_KIND_NONE)
    (executed : kernel.executePendingReschedule fuel now = .ok kernel')
    : kernel'.NoInversion := by
  simp only [executePendingReschedule, pending, if_false] at executed
  have cleared : { kernel with pendingRescheduleKind := RESCHEDULE_KIND_NONE }.Sound :=
    sound.scheduling (.of_eq rfl)
      (sound.consistent.congr (by constructor <;> rfl))
  exact noInversion_of_highest (cleared.reschedule_highest executed)

theorem Sound.performSettled (sound : kernel.Sound) (before : kernel.NoInversion)
    {event : Op × Settling × Instant} (permitted : KeepsUrgency event.1)
    (hp : kernel.performSettled fuel event = .ok kernel')
    : kernel'.Sound ∧ kernel'.NoInversion := by
  obtain ⟨middle, operated, settled⟩ := bind_ok.mp hp
  have middleSound := sound.perform operated
  unfold settle at settled
  split at settled
  next nothing =>
    cases settled
    exact ⟨middleSound, sound.perform_noInversion before permitted operated nothing⟩
  next pending =>
    split at settled
    · exact ⟨middleSound.execute settled, middleSound.execute_highest pending settled⟩
    · obtain ⟨yielded, yields, executed⟩ := bind_ok.mp settled
      have yieldedSound := middleSound.perform yields
      cases yields
      refine ⟨yieldedSound.execute executed, yieldedSound.execute_highest ?_ executed⟩
      simp [setPendingReschedule, RESCHEDULE_KIND_NONE, RESCHEDULE_KIND_YIELD_TO_EQUAL,
        RESCHEDULE_KIND_YIELD_TO_HIGHER, Nat.or_eq_zero_iff]

/-- In every run of operations other than suspending, with each pending reschedule executed
before the next operation, no ready thread is ever more urgent than the current thread and
the lock ceiling.
-/
theorem highestPriority_runs {fuel : Nat} {program : Program}
    (reached
      : Reaches (performSettled fuel) (fun _ event => KeepsUrgency event.1)
          (Kernel.start program) kernel)
    : kernel.NoInversion := by
  have invariant : kernel.Sound ∧ kernel.NoInversion := by
    have initial : (Kernel.start program).NoInversion := by simp [NoInversion, Kernel.start]
    refine reached.invariant (fun state => state.Sound ∧ state.NoInversion)
      ⟨start_sound program, initial⟩ ?_
    intro before event after invariant permitted hp
    exact invariant.1.performSettled invariant.2 permitted hp
  exact invariant.2

/-- Thread 2 takes a lock of ceiling 7 and sleeps; thread 3 of priority 6 becomes ready and
is held back by the ceiling, thread 4 of priority 8 is not.
-/
theorem highestPriority_runs_ceiling
    : let program : Program :=
        ⟨fun thread => .thread (2 * UInt8.ofNat thread), fun _ => .thread 7,
          fun _ => .interrupt 1⟩
      let ran := run (performSettled 1) (Kernel.start program)
        [(.start 2, .interruptExit, 0), (.lock 0, .threadYield, 0),
          (.delayUntil 9, .interruptExit, 1), (.start 3, .interruptExit, 2),
          (.start 4, .interruptExit, 3)]
      ran.map (fun kernel => (kernel.currentThread, kernel.readyQueue)) = .ok (4, [3])
      ∧ ∀ kernel, ran = .ok kernel → kernel.NoInversion := by
  refine ⟨rfl, fun kernel ran => highestPriority_runs (Reaches.here.run ?_ ran)⟩
  intro state event hm
  simp only [List.mem_cons, List.not_mem_nil, or_false] at hm
  rcases hm with rfl | rfl | rfl | rfl | rfl <;> trivial

end Scars.Kernel
