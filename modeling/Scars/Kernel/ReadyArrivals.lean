import Scars.Kernel.ReadyOrder

/-! Which operation makes which threads ready.
Every operation puts exactly the recorded threads into the ready queue, one after the other,
and otherwise only takes threads out of it.
-/

namespace Scars.Kernel

open Runs OrderedInsert Function

variable {kernel kernel' : Kernel} {thread : ThreadId} {fuel : Nat} {now : Instant}
  {rest : List Suspendable} {head : Suspendable}

/-- The idle thread is ready or running. -/
def IdleAwake (kernel : Kernel) : Prop :=
  kernel.state IDLE_THREAD_ID = .ready ∨ kernel.state IDLE_THREAD_ID = .running

theorem IdleAwake.notIdle (awake : kernel.IdleAwake)
    {state : ThreadExecutionState} (inState : kernel.state thread = state)
    (notReady : state ≠ .ready) (notRunning : state ≠ .running)
    : thread ≠ IDLE_THREAD_ID := by
  rintro rfl
  rcases awake with ready | running
  · exact notReady (inState.symm.trans ready)
  · exact notRunning (inState.symm.trans running)

theorem readies_requestIfHigher : Readies [] kernel (kernel.requestIfHigher thread) :=
  readies_eq (steady_scheduling.requestIfHigher scheduling_requests kernel)
    adjusts_requestIfHigher.sameLists.ready

theorem IdleAwake.readies_resumeThread (awake : kernel.IdleAwake)
    (resumed : kernel.resumeThread thread = .ok kernel')
    : Readies (kernel.readiedByResume thread) kernel kernel' := by
  obtain ⟨moved, rfl, moves⟩ := resumeThread_ok resumed
  suffices moves : Readies (kernel.readiedByResume thread) kernel moved by
    simpa using moves.trans readies_requestIfHigher
  rcases moves with ⟨state, -, hi⟩ | ⟨state, -, hi⟩ | ⟨state, hi⟩ | ⟨state, rfl⟩
  · have notIdle := awake.notIdle state (by decide) (by decide)
    have inserts := readies_insertToReadyQueue notIdle hi
    rw [leaveSleepQueue_eq] at inserts
    simp only [readiedByResume, state]
    exact inserts.after (.of_sublist rfl rfl (.refl _) List.erase_sublist) rfl
  · have notIdle := awake.notIdle state (by decide) (by decide)
    simp only [readiedByResume, state]
    exact (readies_insertToReadyQueue notIdle hi).after (.of_eq rfl) rfl
  · have notIdle := awake.notIdle state (by decide) (by decide)
    simp only [readiedByResume, state]
    exact readies_insertToReadyQueue notIdle hi
  · have nobody : moved.readiedByResume thread = [] := by
      rcases state with state | state | state <;> simp [readiedByResume, state]
    rw [nobody]
    exact readies_eq (.of_eq rfl) rfl

theorem readies_wakeupHead
    (woken : { kernel with sleepQueue := rest }.wakeupSuspendable fuel head = .ok kernel')
    : Readies (kernel.readiedByWakeup head) kernel kernel' := by
  have popped : Readies [] kernel { kernel with sleepQueue := rest } :=
    readies_eq (.of_eq rfl) rfl
  cases head with
  | interrupt handler =>
      exact popped.trans (readies_eq (steady_scheduling.polls woken)
        (sameLists_setPendingExecutorPoll woken).ready)
  | thread sleeper =>
      obtain ⟨notIdle, ⟨state, -, hi⟩ | ⟨state, rfl⟩⟩ := wakeupThread_ok woken
      · have blocked : kernel.state sleeper = .blocked := state
        have inserts := readies_insertToReadyQueue notIdle hi
        simp only [readiedByWakeup, blocked, if_true]
        exact inserts.after (.of_sublist rfl rfl (.refl _) List.erase_sublist) rfl
      · have blocked : kernel.state sleeper ≠ .blocked := state
        simp only [readiedByWakeup, blocked, if_false]
        exact popped

theorem wakeupHead_state
    (woken : { kernel with sleepQueue := rest }.wakeupSuspendable fuel head = .ok kernel')
    (hne : head ≠ .thread thread)
    : kernel'.state thread = kernel.state thread := by
  cases head with
  | interrupt handler =>
      obtain ⟨polls, rfl⟩ := setPendingExecutorPoll_ok woken
      rfl
  | thread sleeper =>
      have other : thread ≠ sleeper := fun he => hne (by rw [he])
      obtain ⟨notIdle, ⟨-, -, hi⟩ | ⟨-, rfl⟩⟩ := wakeupThread_ok woken
      · rcases insertToReadyQueue_ok hi with ⟨isIdle, -⟩ | ⟨-, -, rfl⟩
        · exact absurd isIdle notIdle
        · exact update_of_ne other _ _
      · rfl

/-- The wake-up loop makes the due sleepers ready in turn, by induction on its rounds. -/
theorem Consistent.readies_wakeDue (hc : kernel.Consistent) {fuel rounds : Nat}
    (woken : Kernel.wakeDue fuel now rounds kernel = .ok kernel')
    : Readies ((kernel.dueSleepers now).flatMap kernel.readiedByWakeup) kernel kernel' := by
  induction rounds generalizing kernel with
  | zero => cases woken
  | succ rounds ih =>
      rcases wakeDue_ok woken with
        ⟨nothing, alarm, rfl⟩ | ⟨head, rest, middle, hq, due, wakes, later⟩
      · rw [nothing]
        exact readies_eq (.of_eq rfl) rfl
      · have sleeping := (hc.wakeupHead_effect hq wakes).1
        have first := hc.dueSleepers_cons hq due wakes
        have unique := hc.unrepeated.sleeping
        rw [hq] at unique
        have sameLater : (middle.dueSleepers now).flatMap middle.readiedByWakeup
            = (middle.dueSleepers now).flatMap kernel.readiedByWakeup := by
          refine List.flatMap_congr fun sleeper hm => ?_
          have listed : sleeper ∈ rest :=
            sleeping ▸ (List.takeWhile_sublist _).subset hm
          have hne : head ≠ sleeper :=
            fun he => (List.nodup_cons.mp unique).1 (he ▸ listed)
          cases sleeper with
          | interrupt handler => rfl
          | thread thread => simp only [readiedByWakeup, wakeupHead_state wakes hne]
        rw [first, List.flatMap_cons, ← sameLater]
        exact (readies_wakeupHead wakes).trans (ih (hc.wakeupHead hq wakes) later)

theorem readies_switchToNext {kind : Nat} (switched : kernel.switchToNext kind = .ok kernel')
    : Readies (kernel.readiedBySwitch kind) kernel kernel' := by
  have popped {head : ThreadId} {rest : List ThreadId}
      (hq : kernel.readyQueue = head :: rest)
      : Readies [] kernel { kernel with readyQueue := rest } := by
    have shorter : rest.Sublist kernel.readyQueue := hq ▸ List.sublist_cons_self head rest
    exact readies_sublist (.of_sublist rfl rfl shorter (.refl _)) shorter
  rcases switchToNext_ok switched with
    ⟨refused, rfl⟩ | ⟨head, rest, hq, accepted, ⟨hne, hi⟩ | ⟨he, rfl⟩⟩
  · have nobody : kernel'.readiedBySwitch kind = [] := by
      unfold readiedBySwitch
      split
      · rfl
      next head rest hq =>
        have rejects := refused head (by simp [hq])
        simp [rejects]
    rw [nobody]
    exact readies_eq (.of_eq rfl) rfl
  · have switches : Readies [] kernel ({ kernel with readyQueue := rest }.switchThread head).2 :=
      (popped hq).trans (readies_eq (.of_eq rfl) rfl)
    by_cases isIdle : kernel.currentThread = IDLE_THREAD_ID
    · have nobody : kernel.readiedBySwitch kind = [] := by simp [readiedBySwitch, hq, isIdle]
      rw [nobody]
      refine switches.trans (readies_eq (scheduling_insertToReadyQueue hi) ?_)
      rcases insertToReadyQueue_ok hi with ⟨-, rfl⟩ | ⟨notIdle, -⟩
      · rfl
      · exact absurd isIdle notIdle
    · have previous : kernel.readiedBySwitch kind = [kernel.currentThread] := by
        simp [readiedBySwitch, hq, accepted, hne, isIdle]
      rw [previous]
      exact switches.trans (readies_insertToReadyQueue isIdle hi)
  · have nobody : kernel.readiedBySwitch kind = [] := by simp [readiedBySwitch, hq, he]
    rw [nobody]
    exact popped hq

theorem Consistent.readies_reschedule (hc : kernel.Consistent) {fuel kind : Nat}
    (rescheduled : kernel.reschedule fuel kind now = .ok kernel')
    : Readies (kernel.readiedByReschedule fuel kind now) kernel kernel' := by
  obtain ⟨awake, woken, switched⟩ := bind_ok.mp rescheduled
  unfold readiedByReschedule
  rw [woken]
  exact (hc.readies_wakeDue woken).trans (readies_switchToNext switched)

theorem IdleAwake.readies_startThread (awake : kernel.IdleAwake)
    (started : kernel.startThread thread = .ok kernel')
    : Readies ((kernel.setState thread .started).readiedByResume thread) kernel kernel' := by
  unfold startThread at started
  split at started
  · cases started
  next created =>
    rw [not_ne_iff] at created
    have notIdle := awake.notIdle created (by decide) (by decide)
    have stillAwake : (kernel.setState thread .started).IdleAwake := by
      simpa [IdleAwake, setState, update_of_ne notIdle.symm] using awake
    have resumes := stillAwake.readies_resumeThread started
    exact resumes.after (.of_eq rfl) rfl

theorem IdleAwake.readies_notifyNext (awake : kernel.IdleAwake) {queue : WaitQueueId}
    (notified : kernel.notifyNext queue = .ok kernel')
    : Readies (kernel.readied fuel (.notifyNext queue)) kernel kernel' := by
  cases waiting : kernel.waitQueue queue with
  | nil =>
      simp only [readied, waiting]
      simp only [notifyNext, popWaiter, waiting] at notified
      cases notified
      exact readies_eq (.of_eq rfl) rfl
  | cons waiter rest =>
      simp only [readied, waiting]
      simp only [notifyNext, popWaiter, waiting] at notified
      cases waiter with
      | thread thread =>
          have resumed : Kernel.resumeThread thread { kernel with
              waitQueue := update kernel.waitQueue queue rest
              waitOwner := update kernel.waitOwner (.thread thread) none }
            = .ok kernel' := notified
          have resumes := IdleAwake.readies_resumeThread ?_ resumed
          · exact resumes.after (.of_eq rfl) rfl
          · exact awake
      | interrupt handler =>
          cases notified
          exact readies_eq (.of_eq rfl) rfl

theorem IdleAwake.readies_sendEvents (awake : kernel.IdleAwake) {events : Events}
    (sent : kernel.sendEvents thread events = .ok kernel')
    : Readies (kernel.readied fuel (.sendEvents thread events)) kernel kernel' := by
  simp only [readied]
  unfold sendEvents at sent
  dsimp only at sent
  split at sent
  next notify =>
    rw [if_pos notify]
    have resumes := IdleAwake.readies_resumeThread ?_ sent
    · exact resumes.after (.of_eq rfl) rfl
    · exact awake
  next quiet =>
    rw [if_neg quiet]
    cases sent
    exact readies_eq (.of_eq rfl) rfl

theorem Consistent.readies_executePendingReschedule (hc : kernel.Consistent)
    (executed : kernel.executePendingReschedule fuel now = .ok kernel')
    : Readies (kernel.readied fuel (.executePendingReschedule now)) kernel kernel' := by
  simp only [readied]
  unfold Kernel.executePendingReschedule at executed
  dsimp only at executed
  split at executed
  next nothing =>
    rw [if_pos nothing]
    cases executed
    exact readies_eq (.of_eq rfl) rfl
  next pending =>
    rw [if_neg pending]
    have cleared : { kernel with pendingRescheduleKind := RESCHEDULE_KIND_NONE }.Consistent :=
      hc.congr (by constructor <;> rfl)
    have reschedules := cleared.readies_reschedule executed
    exact reschedules.after (.of_eq rfl) rfl

theorem handOver_readyQueue (kernel : Kernel)
    : kernel.handOver.2.readyQueue.Sublist kernel.readyQueue := by
  change kernel.takeNextAboveLocks.2.readyQueue.Sublist kernel.readyQueue
  rcases kernel.takeNextAboveLocks_cases with ⟨head, rest, hq, -, taken⟩ | ⟨-, taken⟩
  · rw [taken, hq]
    exact List.sublist_cons_self head rest
  · rw [taken]

/-- The thread that stops running is filed elsewhere, and its successor leaves the queue. -/
theorem readyQueue_blocks {timeout : Option Instant}
    (blocks : kernel.handOver.2.blockThread thread timeout = .ok kernel')
    : kernel'.readyQueue.Sublist kernel.readyQueue :=
  (blockThread_frame blocks).2.1 ▸ handOver_readyQueue kernel

theorem readyQueue_waitCurrentThreadEvent {events : Events} {deadline : Option Instant}
    {result : Events × Kernel} (waited : kernel.waitCurrentThreadEvent events deadline = .ok result)
    : result.2.readyQueue.Sublist kernel.readyQueue := by
  obtain ⟨-, -, blocks⟩ := waitCurrentThreadEvent_ok waited
  have he : (kernel.requested events).2.readyQueue = kernel.readyQueue := rfl
  rw [← he]
  generalize (kernel.requested events).2 = asked at blocks
  rcases blockUnlessReceived_ok blocks with ⟨-, blocked⟩ | ⟨-, unchanged⟩
  · exact readyQueue_blocks blocked
  · rw [unchanged]

theorem readyQueue_suspendThread {maybeThread : Option ThreadId}
    (suspended : kernel.suspendThread maybeThread = .ok kernel')
    : kernel'.readyQueue.Sublist kernel.readyQueue := by
  have filed {before : Kernel} {thread : ThreadId}
      (hi : before.insertToSuspendedList thread = .ok kernel')
      : kernel'.readyQueue = before.readyQueue := by
    obtain ⟨-, -, rfl⟩ := insertToSuspendedList_ok hi
    rfl
  unfold suspendThread at suspended
  dsimp only at suspended
  split at suspended
  · obtain ⟨removed, removes, hi⟩ := bind_ok.mp suspended
    obtain ⟨-, rfl⟩ := removeFromReadyQueue_ok removes
    rw [filed hi]
    exact List.erase_sublist
  · rw [filed suspended]
    exact handOver_readyQueue kernel
  · rw [filed suspended]
  · cases suspended; exact .refl _
  · cases suspended
  · rw [filed suspended]

/-- Every operation other than taking or giving up a lock makes exactly the recorded threads
ready. Witness: cases on the operation; those that record none only remove threads from the
ready queue.
-/
theorem Consistent.readies_perform (hc : kernel.Consistent) {op : Op}
    (keeps : ¬ ChangesLocks op) (hp : kernel.perform fuel op = .ok kernel')
    : Readies (kernel.readied fuel op) kernel kernel' := by
  have scheduling := scheduling_perform keeps hp
  have awake : kernel.IdleAwake := hc.idle
  cases op with
  | lock lock => exact absurd trivial keeps
  | unlock lock => exact absurd trivial keeps
  | enterSection ceiling => exact absurd trivial keeps
  | leaveSection => exact absurd trivial keeps
  | start thread => exact awake.readies_startThread hp
  | resume thread => exact awake.readies_resumeThread hp
  | suspend thread => exact readies_sublist scheduling (readyQueue_suspendThread hp)
  | wakeupNext =>
      simp only [Kernel.perform, Kernel.wakeupNext] at hp
      cases hq : kernel.sleepQueue with
      | nil =>
          simp only [hq] at hp
          cases hp
          simp only [readied, hq]
          exact readies_eq (.of_eq rfl) rfl
      | cons head rest =>
          simp only [hq] at hp
          simp only [readied, hq]
          exact readies_wakeupHead hp
  | reschedule kind now => exact hc.readies_reschedule hp
  | executePendingReschedule now => exact hc.readies_executePendingReschedule hp
  | wakeupScheduler | yieldCurrentThread => cases hp; exact readies_eq scheduling rfl
  | delayUntil wakeupTime =>
      exact readies_sublist scheduling (readyQueue_blocks (delayThreadUntil_ok hp).2)
  | wait queue ceiling =>
      obtain ⟨-, enqueued, hi, blocks⟩ := waitCurrentThread_ok hp
      refine readies_sublist scheduling ?_
      rw [(blockThread_frame blocks).2.1, (sameLists_enqueued hi).ready]
      exact handOver_readyQueue kernel
  | waitEvent events deadline =>
      obtain ⟨result, waited, rfl⟩ := bind_pure_ok.mp hp
      exact readies_sublist scheduling (readyQueue_waitCurrentThreadEvent waited)
  | condReschedule =>
      cases hp
      exact readies_eq scheduling adjusts_condReschedule.sameLists.ready
  | notifyNext queue => exact awake.readies_notifyNext hp
  | sendEvents thread events => exact awake.readies_sendEvents hp
  | scheduleInterruptWakeup handler wakeupTime =>
      obtain ⟨-, alarm, rfl⟩ := scheduleInterruptWakeup_ok hp
      exact readies_eq scheduling rfl
  | resumeInterrupt handler =>
      obtain ⟨polls, rfl⟩ := resumeInterrupt_ok hp
      exact readies_eq scheduling rfl

end Scars.Kernel
