import Scars.Sync.Condvar

/-! A notification reaches the thread that waits for it, if that thread is not late.
Threads in a wait queue are inside their wait syscall. A thread is answered by a notification
that found it in the queue, so it is taken out, and it enters no queue before its next wait.
-/

namespace Scars

open Runs Function

namespace Kernel

variable {kernel kernel' : Kernel} {queue : WaitQueueId}

/-- What notifying a queue does to the waiters: some leave it, the only waiter certainly. -/
structure Releases (queue : WaitQueueId) (kernel kernel' : Kernel) : Prop where
  consistent : kernel'.Consistent
  filed : kernel'.WaitersFiled
  owner
    : ∀ waiter,
        kernel'.waitOwner waiter = kernel.waitOwner waiter
        ∨ kernel.waitOwner waiter = some queue ∧ kernel'.waitOwner waiter = none
  alone
    : ∀ waiter,
        (∀ other ∈ kernel.waitQueue queue, other = waiter)
        → kernel'.waitOwner waiter ≠ some queue

theorem WaitersFiled.releases_notifyNext (filed : kernel.WaitersFiled)
    (hc : kernel.Consistent) (notified : kernel.notifyNext queue = .ok kernel')
    : kernel.Releases queue kernel' := by
  obtain ⟨filed', ⟨empty, rfl⟩ | ⟨head, rest, hq, -, owners⟩⟩ := filed.notifyNext notified
  · refine ⟨hc, filed, fun _ => Or.inl rfl, fun waiter _ waits => ?_⟩
    have hm := (filed.owner queue waiter).mpr waits
    simp [empty] at hm
  · have headWaits := (filed.owner queue head).mp (by simp [hq])
    refine ⟨hc.notifyNext notified, filed', fun waiter => ?_, fun waiter only => ?_⟩
    · rw [owners]
      rcases eq_or_ne waiter head with rfl | hne
      · exact Or.inr ⟨headWaits, update_self ..⟩
      · exact Or.inl (update_of_ne hne ..)
    · have isHead : head = waiter := only head (by simp [hq])
      simp [owners, isHead]

/-- `notify_all` empties the queue. Witness: induction on the rounds; each takes one waiter
out.
-/
theorem WaitersFiled.notifyAll (filed : kernel.WaitersFiled) (hc : kernel.Consistent)
    {rounds : Nat} (notified : kernel.notifyAll queue rounds = .ok kernel')
    : kernel'.Consistent ∧ kernel'.WaitersFiled
      ∧ ∀ waiter,
          kernel'.waitOwner waiter
          = if kernel.waitOwner waiter = some queue then none else kernel.waitOwner waiter := by
  induction rounds generalizing kernel with
  | zero => cases notified
  | succ rounds ih =>
      unfold Kernel.notifyAll at notified
      split at notified
      next empty =>
        rw [← Except.ok.inj notified]
        refine ⟨hc, filed, fun waiter => ?_⟩
        have absent : kernel.waitOwner waiter ≠ some queue := by
          intro waits
          have hm := (filed.owner queue waiter).mpr waits
          simp [empty] at hm
        rw [if_neg absent]
      next head rest hq =>
        obtain ⟨middle, first, later⟩ := bind_ok.mp notified
        obtain ⟨filed', ⟨empty, -⟩ | ⟨popped, _, found, -, owners⟩⟩ := filed.notifyNext first
        · simp [hq] at empty
        · obtain ⟨consistent'', filed'', final⟩ :=
            ih filed' (hc.notifyNext first) later
          refine ⟨consistent'', filed'', fun waiter => ?_⟩
          have poppedWaits := (filed.owner queue popped).mp (by simp [found])
          rw [final, owners]
          rcases eq_or_ne waiter popped with rfl | hne
          · simp [poppedWaits]
          · rw [update_of_ne hne]

theorem WaitersFiled.releases_notifyAll (filed : kernel.WaitersFiled)
    (hc : kernel.Consistent) {rounds : Nat} (notified : kernel.notifyAll queue rounds = .ok kernel')
    : kernel.Releases queue kernel' := by
  obtain ⟨hc', filed', owners⟩ := filed.notifyAll hc notified
  refine ⟨hc', filed', fun waiter => ?_, fun waiter _ => ?_⟩
  · rw [owners]
    split
    next waits => exact Or.inr ⟨waits, rfl⟩
    next => exact Or.inl rfl
  · rw [owners]
    split
    · simp
    next absent => exact absent

end Kernel

namespace Monitors

variable {state state' : Monitors} {fuel : Nat} {condvar : Condvar}

/-- Every thread in a wait queue is inside its wait syscall on that queue. A thread whose
wait was answered is in no queue and will not enter one before its next wait.
-/
structure Orderly (state : Monitors) : Prop where
  consistent : state.kernel.Consistent
  filed : state.kernel.WaitersFiled
  placed
    : ∀ thread queue,
        state.kernel.waitOwner (.thread thread) = some queue
        → ∃ condvar lock,
            state.place thread = .waiting condvar lock ∧ condvar.waiterQueue = queue
  answered
    : ∀ thread,
        state.answered thread = true
        → state.kernel.waitOwner (.thread thread) = none
          ∧ ∀ condvar lock, state.place thread ≠ .released condvar lock

theorem start_orderly (program : Program) : (start program).Orderly where
  consistent := Kernel.start_consistent program
  filed := Kernel.start_waitersFiled program
  placed := by simp [start, Kernel.start]
  answered := by simp [start]

section

variable (orderly : state.Orderly)
include orderly

theorem Orderly.current_free
    : state.kernel.waitOwner (.thread state.kernel.currentThread) = none := by
  cases owner : state.kernel.waitOwner (.thread state.kernel.currentThread) with
  | none => rfl
  | some queue =>
      have blocked := (orderly.filed.parked _ queue owner).1
      have runs := (orderly.consistent.running state.kernel.currentThread).mpr rfl
      simp [runs] at blocked

theorem Orderly.move {place : WaitPlace} {answered : ThreadId → Bool}
    (hc : state'.kernel.Consistent) (spares : state.kernel.Spares state'.kernel)
    (places : state'.place = update state.place state.kernel.currentThread place)
    (answers : state'.answered = answered)
    (fewer : ∀ thread, answered thread = true → state.answered thread = true)
    (fresh
      : answered state.kernel.currentThread = true
        → ∀ condvar lock, place ≠ .released condvar lock)
    : state'.Orderly where
  consistent := hc
  filed := orderly.filed.spares spares
  placed thread queue waits := by
    rw [spares.waitOwner] at waits
    have hne : thread ≠ state.kernel.currentThread := by
      rintro rfl
      simp [orderly.current_free] at waits
    rw [places, update_of_ne hne]
    exact orderly.placed thread queue waits
  answered thread isAnswered := by
    rw [answers] at isAnswered
    obtain ⟨free, notReleased⟩ := orderly.answered thread (fewer thread isAnswered)
    rw [spares.waitOwner, places]
    refine ⟨free, ?_⟩
    rcases eq_or_ne thread state.kernel.currentThread with rfl | hne
    · rw [update_self]
      exact fresh isAnswered
    · rw [update_of_ne hne]
      exact notReleased

/-- The wait syscall puts the current thread, whose wait is not answered yet, into the
queue.
-/
theorem Orderly.enqueue {lock : LockId}
    (here : state.place state.kernel.currentThread = .released condvar lock) {kernel : Kernel}
    (waited
      : state.kernel.waitCurrentThread condvar.waiterQueue condvar.ceiling = .ok kernel)
    : Orderly { state with
        kernel
        place := update state.place state.kernel.currentThread
          (.waiting condvar lock) } := by
  obtain ⟨-, owners, -, -, -⟩ := orderly.consistent.waitCurrentThread_effect waited
  constructor
  case consistent => exact orderly.consistent.waitCurrentThread waited
  case filed => exact orderly.filed.waitCurrentThread orderly.consistent waited
  case placed =>
    intro thread queue waits
    rcases eq_or_ne thread state.kernel.currentThread with rfl | hne
    · have isQueue : condvar.waiterQueue = queue := by simpa [owners] using waits
      exact ⟨condvar, lock, update_self .., isQueue⟩
    · have waited : state.kernel.waitOwner (.thread thread) = some queue := by
        simpa [owners, hne] using waits
      obtain ⟨entered, held, place, isQueue⟩ := orderly.placed thread queue waited
      exact ⟨entered, held, by simpa [hne] using place, isQueue⟩
  case answered =>
    intro thread isAnswered
    obtain ⟨free, notReleased⟩ := orderly.answered thread isAnswered
    have hne : thread ≠ state.kernel.currentThread := by
      rintro rfl
      exact notReleased condvar lock here
    simpa [owners, hne] using And.intro free notReleased

/-- A notification for which nobody is late. Witness: a thread it answers either is the only
waiter and leaves the queue, or left it before.
-/
theorem Orderly.notify {kernel : Kernel} (inTime : state.NobodyLate condvar)
    (releases : state.kernel.Releases condvar.waiterQueue kernel)
    : Orderly { state with kernel, answered := state.answer condvar } := by
  have stillPlaced (thread : ThreadId) (queue : WaitQueueId)
      (waits : kernel.waitOwner (.thread thread) = some queue)
      : state.kernel.waitOwner (.thread thread) = some queue := by
    rcases releases.owner (.thread thread) with he | ⟨-, left⟩
    · rw [← he, waits]
    · simp [left] at waits
  constructor
  case consistent => exact releases.consistent
  case filed => exact releases.filed
  case placed =>
    exact fun thread queue waits =>
      orderly.placed thread queue (stillPlaced thread queue waits)
  case answered =>
    intro thread isAnswered
    simp only [answer, Bool.or_eq_true, Bool.and_eq_true, List.all_eq_true, beq_iff_eq]
      at isAnswered
    rcases isAnswered with before | ⟨isOn, only⟩
    · obtain ⟨free, notReleased⟩ := orderly.answered thread before
      refine ⟨?_, notReleased⟩
      rcases releases.owner (.thread thread) with he | ⟨-, left⟩
      · rw [he, free]
      · exact left
    · constructor
      · cases owner : kernel.waitOwner (.thread thread) with
        | none => rfl
        | some queue =>
            -- it would still be in the queue of its condition variable, of which it was
            -- the only waiter
            obtain ⟨entered, lock, place, isQueue⟩ :=
              orderly.placed thread queue (stillPlaced thread queue owner)
            have sameQueue : entered.waiterQueue = condvar.waiterQueue := by
              simpa [place, WaitPlace.isOn] using isOn
            rw [← isQueue, sameQueue] at owner
            exact absurd owner (releases.alone _ only)
      · intro entered lock isReleased
        have place : state.place thread = .released entered lock := isReleased
        have sameQueue : entered.waiterQueue = condvar.waiterQueue := by
          simpa [place, WaitPlace.isOn] using isOn
        refine inTime ?_ thread entered lock place sameQueue
        apply List.eq_nil_iff_forall_not_mem.mpr
        intro waiter hm
        obtain rfl := only waiter hm
        obtain ⟨_, _, elsewhere, -⟩ :=
          orderly.placed thread _ ((orderly.filed.owner _ _).mp hm)
        simp [elsewhere] at place

/-- A step in time keeps queued threads inside their waits. -/
theorem Orderly.step (event : MonitorEvent) (inTime : state.InTime event)
    (hs : state.step fuel event = .ok state')
    : state'.Orderly := by
  cases event with
  | unlock condvar lock =>
      simp only [Monitors.step] at hs
      split at hs
      · obtain ⟨kernel, unlocked, rfl⟩ := bind_pure_ok.mp hs
        refine orderly.move (orderly.consistent.perform unlocked)
          (Kernel.adjusts_unlockScoped unlocked).spares rfl rfl ?_ ?_
        · intro thread isAnswered
          rcases eq_or_ne thread state.kernel.currentThread with rfl | hne
          · simp at isAnswered
          · simpa [hne] using isAnswered
        · intro isAnswered
          simp at isAnswered
      · cases hs
  | wait =>
      simp only [Monitors.step] at hs
      split at hs
      next condvar lock here =>
        obtain ⟨kernel, waited, rfl⟩ := bind_pure_ok.mp hs
        exact orderly.enqueue here waited
      · cases hs
  | relock =>
      simp only [Monitors.step] at hs
      split at hs
      · obtain ⟨kernel, locked, rfl⟩ := bind_pure_ok.mp hs
        exact orderly.move (orderly.consistent.perform locked)
          (Kernel.adjusts_lockScoped locked).spares rfl rfl (fun _ => id) (by simp)
      · cases hs
  | notifyOne condvar =>
      obtain ⟨kernel, notified, rfl⟩ := bind_pure_ok.mp hs
      exact orderly.notify inTime
        (orderly.filed.releases_notifyNext orderly.consistent notified)
  | notifyAll condvar =>
      obtain ⟨kernel, notified, rfl⟩ := bind_pure_ok.mp hs
      exact orderly.notify inTime
        (orderly.filed.releases_notifyAll orderly.consistent notified)
  | other op =>
      simp only [Monitors.step] at hs
      split at hs
      next ha =>
        obtain ⟨kernel, hp, rfl⟩ := bind_pure_ok.mp hs
        have apart := (Bool.and_eq_true_iff.mp ha).1
        refine orderly.move (orderly.consistent.perform hp)
          (orderly.consistent.spares_perform apart hp)
          (update_eq_self _ _).symm rfl (fun _ => id) ?_
        exact fun isAnswered => (orderly.answered _ isAnswered).2
      · cases hs

theorem Orderly.delivered : state.Delivered := by
  intro thread isAnswered queue hm
  have waits := (orderly.filed.owner queue _).mp hm
  simp [(orderly.answered thread isAnswered).1] at waits

end

theorem delivered_of_reaches {program : Program}
    (reached : Reaches (step fuel) InTime (start program) state)
    : state.Delivered := by
  have orderly : state.Orderly :=
    reached.invariant Orderly (start_orderly program)
      fun _ event _ orderly inTime hs => orderly.step event inTime hs
  exact orderly.delivered

end Monitors

end Scars
