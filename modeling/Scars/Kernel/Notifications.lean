import Scars.Kernel.Waiters

/-! How threads get into wait queues and out of them.
Only the wait syscall of the current thread adds a waiter and only a notification removes
one; every other operation leaves the waiters where they are.
-/

namespace Scars.Kernel

open Runs OrderedInsert Function

variable {kernel kernel' : Kernel} {thread : ThreadId} {queue : WaitQueueId} {ceiling : Priority}

/-- The operation neither waits nor notifies, and resumes no thread that waits for a
notification.
-/
def sparesWaiters (kernel : Kernel) : Op → Bool
  | .resume thread => (kernel.waitOwner (.thread thread)).isNone
  | .sendEvents thread _ => (kernel.waitOwner (.thread thread)).isNone
  | .wait _ _ => false
  | .notifyNext _ => false
  | _ => true

theorem spares_startThread (started : kernel.startThread thread = .ok kernel')
    : kernel.Spares kernel' := by
  unfold startThread at started
  split at started
  · cases started
  next created =>
    have unblocked : kernel.Unwaited thread :=
      .of_state (by rw [not_ne_iff.mp created]; simp)
    have marked : kernel.Spares (kernel.setState thread .started) :=
      .touch unblocked rfl rfl fun other hne =>
        ⟨update_of_ne hne _ _, rfl⟩
    refine marked.trans (spares_resumeThread (.of_state ?_) started)
    simp [setState]

section

variable (hc : kernel.Consistent)
include hc

/-- Suspending a blocked thread fails, so no waiter is suspended. -/
theorem Consistent.spares_suspendThread {maybeThread : Option ThreadId}
    (suspended : kernel.suspendThread maybeThread = .ok kernel')
    : kernel.Spares kernel' := by
  unfold Kernel.suspendThread at suspended
  dsimp only at suspended
  split at suspended
  next ready =>
    obtain ⟨removed, removes, hi⟩ := bind_ok.mp suspended
    obtain ⟨-, rfl⟩ := removeFromReadyQueue_ok removes
    refine Spares.trans ?_ (spares_insertToSuspendedList (.of_state ?_) hi)
    · exact .of_eq rfl
    · change kernel.state _ ≠ _
      simp [ready]
  next =>
    refine hc.spares_handOver.trans (spares_insertToSuspendedList ?_ suspended)
    rw [handOver_fst]
    exact unwaited_handOver
  next blocked =>
    obtain ⟨notIdle, unlisted, -⟩ := insertToSuspendedList_ok suspended
    have listed := (hc.filed _).blocked.mpr ⟨blocked, notIdle⟩
    exact absurd listed (inExecList_eq_false.mp unlisted).2.1
  next => cases suspended; exact .of_eq rfl
  next => cases suspended
  next started =>
    exact spares_insertToSuspendedList (.of_state (by simp [started])) suspended

theorem Consistent.spares_switchToNext {kind : Nat}
    (switched : kernel.switchToNext kind = .ok kernel')
    : kernel.Spares kernel' := by
  rcases switchToNext_ok switched with
    ⟨-, rfl⟩ | ⟨head, rest, hq, -, ⟨hne, hi⟩ | ⟨-, rfl⟩⟩
  · exact .of_eq rfl
  · have popped : kernel.Spares { kernel with readyQueue := rest } :=
      .of_eq rfl
    have switches : { kernel with readyQueue := rest }.Spares
        ({ kernel with readyQueue := rest }.switchThread head).2 :=
      spares_switchThread (hc.unwaited_ready (by simp [hq]))
        hc.unwaited_current
    refine (popped.trans switches).trans (spares_insertToReadyQueue (.of_state ?_) hi)
    simp [switchThread, setState]
  · exact .of_eq rfl

theorem Consistent.spares_reschedule {fuel kind : Nat} {now : Instant}
    (rescheduled : kernel.reschedule fuel kind now = .ok kernel')
    : kernel.Spares kernel' := by
  obtain ⟨awake, woken, switched⟩ := bind_ok.mp rescheduled
  exact (hc.spares_wakeDue woken).trans
    ((hc.wakeDue woken).spares_switchToNext switched)

theorem Consistent.spares_executePendingReschedule {fuel : Nat} {now : Instant}
    (executed : kernel.executePendingReschedule fuel now = .ok kernel')
    : kernel.Spares kernel' := by
  unfold Kernel.executePendingReschedule at executed
  dsimp only at executed
  split at executed
  · cases executed; exact .of_eq rfl
  · have cleared
        : { kernel with pendingRescheduleKind := RESCHEDULE_KIND_NONE }.Consistent :=
      hc.congr (by constructor <;> rfl)
    refine Spares.trans ?_ (cleared.spares_reschedule executed)
    exact .of_eq rfl

theorem Consistent.spares_waitCurrentThreadEvent {events : Events} {deadline : Option Instant}
    {result : Events × Kernel} (waited : kernel.waitCurrentThreadEvent events deadline = .ok result)
    : kernel.Spares result.2 := by
  obtain ⟨-, -, blocks⟩ := waitCurrentThreadEvent_ok waited
  have requested : kernel.Spares (kernel.requested events).2 :=
    .of_eq rfl
  refine requested.trans ?_
  rcases blockUnlessReceived_ok blocks with ⟨-, blocks⟩ | ⟨-, he⟩
  · have stillConsistent := hc.congr (sameLists_requested events)
    exact stillConsistent.spares_handOver.trans (spares_blockThread unwaited_handOver blocks)
  · exact he ▸ .of_eq rfl

theorem Consistent.spares_perform {fuel : Nat} {op : Op} (apart : kernel.sparesWaiters op = true)
    (hp : kernel.perform fuel op = .ok kernel')
    : kernel.Spares kernel' := by
  cases op with
  | wait queue ceiling => cases apart
  | notifyNext queue => cases apart
  | start thread => exact spares_startThread hp
  | resume thread =>
      exact spares_resumeThread (Or.inl (Option.isNone_iff_eq_none.mp apart)) hp
  | suspend maybeThread => exact hc.spares_suspendThread hp
  | wakeupNext =>
      simp only [Kernel.perform, Kernel.wakeupNext] at hp
      split at hp
      · cases hp; exact .of_eq rfl
      next hq => exact hc.spares_wakeupHead hq hp
  | reschedule kind now => exact hc.spares_reschedule hp
  | executePendingReschedule now =>
      exact hc.spares_executePendingReschedule hp
  | wakeupScheduler | yieldCurrentThread => cases hp; exact .of_eq rfl
  | delayUntil wakeupTime =>
      exact hc.spares_handOver.trans
        (spares_blockThread unwaited_handOver (delayThreadUntil_ok hp).2)
  | waitEvent events deadline =>
      obtain ⟨result, waited, rfl⟩ := bind_pure_ok.mp hp
      exact hc.spares_waitCurrentThreadEvent waited
  | lock _ | unlock _ | enterSection _ | leaveSection | condReschedule =>
      exact (adjusts_perform hp trivial).spares
  | sendEvents thread events =>
      obtain ⟨stored, rfl | resumed⟩ := sendEvents_ok hp
      · exact .of_eq rfl
      · refine Spares.trans ?_ (spares_resumeThread (Or.inl ?_) resumed)
        · exact .of_eq rfl
        · exact Option.isNone_iff_eq_none.mp apart
  | scheduleInterruptWakeup handler wakeupTime =>
      have dated : kernel.Spares (kernel.setDeadline (.interrupt handler) (some wakeupTime)) :=
        .of_eq (by simp [setDeadline, funext_iff])
      obtain ⟨-, alarm, rfl⟩ := scheduleInterruptWakeup_ok hp
      exact dated.trans (.of_eq rfl)
  | resumeInterrupt handler =>
      obtain ⟨polls, rfl⟩ := resumeInterrupt_ok hp
      exact .of_eq rfl

end

theorem insertToWaitQueue_ok {suspendable : Suspendable}
    (hi : kernel.insertToWaitQueue queue suspendable = .ok kernel')
    : kernel.waitOwner suspendable = none
      ∧ ∃ passes,
          kernel' = { kernel with
            waitQueue := update kernel.waitQueue queue
              (insertPast passes suspendable (kernel.waitQueue queue))
            waitOwner := update kernel.waitOwner suspendable (some queue) } := by
  unfold insertToWaitQueue at hi
  split at hi
  · cases hi
  next free =>
    exact ⟨by simpa using free, _, (Except.ok.inj hi).symm⟩

/-- A wait parks the current thread in the queue and touches no other waiter. -/
theorem Consistent.waitCurrentThread_effect (hc : kernel.Consistent)
    (waited : kernel.waitCurrentThread queue ceiling = .ok kernel')
    : kernel.waitOwner (.thread kernel.currentThread) = none
      ∧ kernel'.waitOwner
        = update kernel.waitOwner (.thread kernel.currentThread) (some queue)
      ∧ (∃ passes,
          kernel'.waitQueue = update kernel.waitQueue queue
            (insertPast passes (.thread kernel.currentThread) (kernel.waitQueue queue)))
      ∧ kernel'.Parked kernel.currentThread
      ∧ ∀ other,
          other ≠ kernel.currentThread
          → kernel.waitOwner (.thread other) ≠ none
          → kernel.Parked other
          → kernel'.Parked other := by
  obtain ⟨-, enqueued, hi, blocks⟩ := waitCurrentThread_ok waited
  have raised : kernel.Spares (kernel.raisedForWait ceiling).2 :=
    hc.spares_handOver.trans (adjusts_setHandlerPriorities _ _).spares
  have restored : enqueued.Adjusts (enqueued.setHandlerNesting SYSCALL_INTERRUPT_HANDLER
      (kernel.raisedForWait ceiling).1) := adjusts_setHandlerPriorities _ _
  obtain ⟨free, passes, rfl⟩ := insertToWaitQueue_ok hi
  obtain ⟨_, _, _, _, _, restored⟩ := restored
  rw [restored, blockThread_none] at blocks
  obtain ⟨-, -, rfl⟩ := insertToBlockedQueue_ok blocks
  rw [raised.waitOwner] at free
  refine ⟨free, ?_, ⟨passes, ?_⟩, ⟨?_, ?_⟩, ?_⟩
  · simp [setState, setDeadline, raised.waitOwner]
  · simp [setState, setDeadline, raised.waitQueue]
  · simp [setState]
  · simp [setState, setDeadline]
  · intro other hne waits parked
    obtain ⟨state, deadline⟩ := raised.parked other waits parked
    exact ⟨by simpa [setState, setDeadline, hne] using state,
      by simpa [setState, setDeadline, hne] using deadline⟩

theorem WaitersFiled.waitCurrentThread (filed : kernel.WaitersFiled)
    (hc : kernel.Consistent) (waited : kernel.waitCurrentThread queue ceiling = .ok kernel')
    : kernel'.WaitersFiled := by
  obtain ⟨free, owners, ⟨passes, queues⟩, parked, others⟩ :=
    hc.waitCurrentThread_effect waited
  constructor
  case owner =>
    intro other waiter
    rw [queues, owners]
    rcases eq_or_ne other queue with rfl | otherQueue
    · rw [update_self, mem_insertPast, filed.owner]
      rcases eq_or_ne waiter (.thread kernel.currentThread) with rfl | hne
      · simp
      · simp [hne]
    · rw [update_of_ne otherQueue, filed.owner]
      rcases eq_or_ne waiter (.thread kernel.currentThread) with rfl | hne
      · simp [free, otherQueue.symm]
      · rw [update_of_ne hne]
  case unrepeated =>
    intro other
    rw [queues]
    rcases eq_or_ne other queue with rfl | otherQueue
    · rw [update_self]
      apply nodup_insertPast _ (filed.unrepeated other)
      simp [filed.owner, free]
    · rw [update_of_ne otherQueue]
      exact filed.unrepeated other
  case threads =>
    intro handler
    rw [owners, update_of_ne (by simp)]
    exact filed.threads handler
  case parked =>
    intro thread other waits
    rcases eq_or_ne thread kernel.currentThread with rfl | hne
    · exact parked
    · rw [owners, update_of_ne (by simpa using hne)] at waits
      exact others thread hne (by simp [waits]) (filed.parked thread other waits)

theorem WaitersFiled.dequeue (filed : kernel.WaitersFiled) {head : Suspendable}
    {rest : List Suspendable} (hq : kernel.waitQueue queue = head :: rest)
    (queues : kernel'.waitQueue = update kernel.waitQueue queue rest)
    (owners : kernel'.waitOwner = update kernel.waitOwner head none)
    (he : ∀ thread, kernel.Parked thread → kernel'.Parked thread)
    : kernel'.WaitersFiled := by
  have unique := filed.unrepeated queue
  rw [hq] at unique
  obtain ⟨notLater, restUnique⟩ := List.nodup_cons.mp unique
  have headOwner : kernel.waitOwner head = some queue :=
    (filed.owner queue head).mp (by simp [hq])
  constructor
  case owner =>
    intro other waiter
    rw [queues, owners]
    rcases eq_or_ne waiter head with rfl | hne
    · rcases eq_or_ne other queue with rfl | otherQueue
      · simp [notLater]
      · simp [otherQueue, filed.owner, headOwner, otherQueue.symm]
    · rw [update_of_ne hne, ← filed.owner]
      rcases eq_or_ne other queue with rfl | otherQueue
      · simp [hq, hne]
      · simp [otherQueue]
  case unrepeated =>
    intro other
    rw [queues]
    rcases eq_or_ne other queue with rfl | otherQueue
    · simpa using restUnique
    · simpa [otherQueue] using filed.unrepeated other
  case threads =>
    intro handler
    rw [owners]
    rcases eq_or_ne (.interrupt handler) head with rfl | hne
    · simp
    · rw [update_of_ne hne]
      exact filed.threads handler
  case parked =>
    intro thread other waits
    rw [owners] at waits
    rcases eq_or_ne (.thread thread) head with rfl | hne
    · simp at waits
    · rw [update_of_ne hne] at waits
      exact he thread (filed.parked thread other waits)

/-- A notification of an empty queue changes nothing. Otherwise the first waiter leaves the
queue, and it alone.
-/
theorem WaitersFiled.notifyNext (filed : kernel.WaitersFiled)
    (notified : kernel.notifyNext queue = .ok kernel')
    : kernel'.WaitersFiled
      ∧ ((kernel.waitQueue queue = [] ∧ kernel' = kernel)
        ∨ ∃ head rest,
            kernel.waitQueue queue = head :: rest
            ∧ kernel'.waitQueue = update kernel.waitQueue queue rest
            ∧ kernel'.waitOwner = update kernel.waitOwner head none) := by
  unfold Kernel.notifyNext popWaiter at notified
  split at notified
  next taken =>
    split at taken
    next empty =>
      cases taken
      cases notified
      exact ⟨filed, Or.inl ⟨empty, rfl⟩⟩
    · cases taken
  next waiter _ taken =>
    split at taken
    · cases taken
    next head rest hq =>
      cases taken
      have popped : WaitersFiled { kernel with
          waitQueue := update kernel.waitQueue queue rest
          waitOwner := update kernel.waitOwner waiter none } :=
        filed.dequeue hq rfl rfl fun _ => id
      have spares : Spares { kernel with
          waitQueue := update kernel.waitQueue queue rest
          waitOwner := update kernel.waitOwner waiter none } kernel' := by
        cases waiter with
        | thread thread =>
            refine spares_resumeThread (Or.inl ?_) notified
            simp
        | interrupt handler => cases notified; exact .of_eq rfl
      exact ⟨popped.spares spares,
        Or.inr ⟨waiter, rest, hq, spares.waitQueue, spares.waitOwner⟩⟩

end Scars.Kernel
