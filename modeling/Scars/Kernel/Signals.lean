import Scars.Kernel.DueSleepers
import Scars.Kernel.Wakes

/-! Who is signalled that its deadline expired.
The wake-up event is set for the threads that a reschedule takes out of the sleep queue, and for
nobody else.
-/

namespace Scars.Kernel

open Runs OrderedInsert Function

variable {kernel kernel' : Kernel} {thread : ThreadId}

/-- The wake-up event of the thread is set. -/
def Signalled (kernel : Kernel) (thread : ThreadId) : Prop :=
  (kernel.events thread).sentEventsMask &&& Events.SCHEDULER_WAKEUP_EVENT ≠ 0

/-- The same threads are signalled. -/
def Silent (kernel kernel' : Kernel) : Prop :=
  ∀ thread, kernel'.Signalled thread ↔ kernel.Signalled thread

theorem Silent.trans {first second third : Kernel} (left : first.Silent second)
    (right : second.Silent third)
    : first.Silent third :=
  fun thread => (right thread).trans (left thread)

theorem Silent.of_eq (he : kernel'.events = kernel.events) : kernel.Silent kernel' := by
  intro thread
  unfold Signalled
  rw [he]

theorem Adjusts.silent (adjusts : kernel.Adjusts kernel') : kernel.Silent kernel' := by
  obtain ⟨_, _, _, _, _, rfl⟩ := adjusts
  exact .of_eq rfl

theorem events_insertToReadyQueue (hi : kernel.insertToReadyQueue thread = .ok kernel')
    : kernel'.events = kernel.events := by
  rcases insertToReadyQueue_ok hi with ⟨-, rfl⟩ | ⟨-, -, rfl⟩ <;> rfl

theorem events_insertToSuspendedList (hi : kernel.insertToSuspendedList thread = .ok kernel')
    : kernel'.events = kernel.events := by
  obtain ⟨-, -, rfl⟩ := insertToSuspendedList_ok hi
  rfl

theorem events_handOver : kernel.handOver.2.events = kernel.events := by
  change kernel.takeNextAboveLocks.2.events = kernel.events
  rcases kernel.takeNextAboveLocks_cases with ⟨_, _, -, -, taken⟩ | ⟨-, taken⟩ <;> rw [taken]

theorem silent_setEvents {set : EventSet}
    (he
      : set.sentEventsMask &&& Events.SCHEDULER_WAKEUP_EVENT
        = (kernel.events thread).sentEventsMask &&& Events.SCHEDULER_WAKEUP_EVENT)
    : kernel.Silent (kernel.setEvents thread set) := by
  intro other
  unfold Signalled
  change (update kernel.events thread set other).sentEventsMask &&& _ ≠ 0 ↔ _
  by_cases isThread : other = thread
  · subst isThread
    rw [update_self, he]
  · rw [update_of_ne isThread]

theorem and_wakeup_of_apart (sent : Events) {events : Events}
    (apart : events &&& Events.SCHEDULER_WAKEUP_EVENT = 0)
    : (sent ||| events) &&& Events.SCHEDULER_WAKEUP_EVENT
      = sent &&& Events.SCHEDULER_WAKEUP_EVENT := by
  rw [BitVec.and_or_distrib_right, apart]
  exact BitVec.or_zero

theorem silent_setResumeEvent (thread : ThreadId)
    : kernel.Silent (kernel.setResumeEvent thread) := by
  unfold setResumeEvent
  exact silent_setEvents (and_wakeup_of_apart (kernel.events thread).sentEventsMask rfl)

theorem silent_resumeThread (resumed : kernel.resumeThread thread = .ok kernel')
    : kernel.Silent kernel' := by
  obtain ⟨moved, rfl, moves⟩ := resumeThread_ok resumed
  refine Silent.trans ?_ adjusts_requestIfHigher.silent
  rcases moves with ⟨-, -, hi⟩ | ⟨-, -, hi⟩ | ⟨-, hi⟩ | ⟨-, rfl⟩
  · refine (silent_setResumeEvent thread).trans (.of_eq ?_)
    rw [events_insertToReadyQueue hi, leaveSleepQueue_eq]
    rfl
  · refine (silent_setResumeEvent thread).trans (.of_eq ?_)
    rw [events_insertToReadyQueue hi]
    rfl
  · exact .of_eq (events_insertToReadyQueue hi)
  · exact .of_eq rfl

theorem silent_suspendThread {maybeThread : Option ThreadId}
    (suspended : kernel.suspendThread maybeThread = .ok kernel')
    : kernel.Silent kernel' := by
  unfold suspendThread at suspended
  dsimp only at suspended
  split at suspended
  next =>
    obtain ⟨removed, removes, hi⟩ := bind_ok.mp suspended
    obtain ⟨-, rfl⟩ := removeFromReadyQueue_ok removes
    have he := events_insertToSuspendedList hi
    exact .of_eq he
  next => exact .of_eq ((events_insertToSuspendedList suspended).trans events_handOver)
  next => exact .of_eq (events_insertToSuspendedList suspended)
  next => cases suspended; exact .of_eq rfl
  next => cases suspended
  next => exact .of_eq (events_insertToSuspendedList suspended)

theorem Consistent.signalled_wakeupHead (hc : kernel.Consistent) {fuel : Nat}
    {head : Suspendable} {rest : List Suspendable} (hq : kernel.sleepQueue = head :: rest)
    (woken : { kernel with sleepQueue := rest }.wakeupSuspendable fuel head = .ok kernel')
    : kernel'.Signalled thread ↔ kernel.Signalled thread ∨ .thread thread = head := by
  cases head with
  | interrupt handler =>
      obtain ⟨polls, rfl⟩ := setPendingExecutorPoll_ok woken
      exact ⟨Or.inl, fun signalled => signalled.resolve_right nofun⟩
  | thread sleeper =>
      have blocked := ((hc.filed sleeper).sleeping (by simp [hq])).1
      obtain ⟨-, ⟨-, -, hi⟩ | ⟨notBlocked, -⟩⟩ := wakeupThread_ok woken
      · unfold Signalled
        rw [events_insertToReadyQueue hi]
        change
          ((update kernel.events sleeper (kernel.events sleeper).setWakeupEvent)
            thread).sentEventsMask &&& _ ≠ 0 ↔ _
        by_cases he : thread = sleeper
        · subst he
          refine iff_of_true ?_ (Or.inr rfl)
          rw [update_self, EventSet.setWakeupEvent, BitVec.and_or_distrib_right,
            BitVec.and_self]
          intro none
          have bit := congrArg (fun events => BitVec.getLsbD events 29) none
          simp [Events.SCHEDULER_WAKEUP_EVENT] at bit
        · rw [update_of_ne he]
          simp [he]
      · exact absurd blocked notBlocked

/-- The loop signals the threads that it takes out of the sleep queue. Witness: induction on the
rounds; no thread is queued twice.
-/
theorem Consistent.signalled_wakeDue (hc : kernel.Consistent) {fuel rounds : Nat}
    {now : Instant} (woken : Kernel.wakeDue fuel now rounds kernel = .ok kernel')
    : (∀ sleeper ∈ kernel'.sleepQueue, sleeper ∈ kernel.sleepQueue)
      ∧ ∀ thread,
          kernel'.Signalled thread
          ↔ kernel.Signalled thread
            ∨ .thread thread ∈ kernel.sleepQueue ∧ .thread thread ∉ kernel'.sleepQueue := by
  induction rounds generalizing kernel with
  | zero => cases woken
  | succ rounds ih =>
      rcases wakeDue_ok woken with
        ⟨-, alarm, rfl⟩ | ⟨head, rest, middle, hq, -, wakes, later⟩
      · refine ⟨fun _ hm => hm, fun thread => ?_⟩
        simp only [and_not_self_iff, or_false]
        rfl
      · have sleeping := (hc.wakeupHead_effect hq wakes).1
        obtain ⟨shrinks, signalled⟩ := ih (hc.wakeupHead hq wakes) later
        rw [sleeping] at shrinks signalled
        refine ⟨fun sleeper hm => by simp [hq, shrinks sleeper hm], fun thread => ?_⟩
        rw [signalled thread, hc.signalled_wakeupHead hq wakes, hq]
        have once : head ∉ rest := by
          have unrepeated := hc.unrepeated.sleeping
          rw [hq] at unrepeated
          exact (List.nodup_cons.mp unrepeated).1
        constructor
        · rintro ((before | isHead) | ⟨hm, left⟩)
          · exact Or.inl before
          · exact Or.inr ⟨by simp [isHead], fun stays => once (shrinks head (isHead ▸ stays))⟩
          · exact Or.inr ⟨by simp [hm], left⟩
        · rintro (before | ⟨hm, left⟩)
          · exact Or.inl (Or.inl before)
          · rcases List.mem_cons.mp hm with isHead | hm
            · exact Or.inl (Or.inr isHead)
            · exact Or.inr ⟨hm, left⟩

theorem Consistent.signalled_reschedule (hc : kernel.Consistent) {fuel kind : Nat}
    {now : Instant} (rescheduled : kernel.reschedule fuel kind now = .ok kernel')
    : kernel'.Signalled thread
      ↔ kernel.Signalled thread
        ∨ .thread thread ∈ kernel.sleepQueue ∧ .thread thread ∉ kernel'.sleepQueue := by
  obtain ⟨awake, woken, switched⟩ := bind_ok.mp rescheduled
  have he : kernel'.events = awake.events ∧ kernel'.sleepQueue = awake.sleepQueue := by
    rcases switchToNext_ok switched with ⟨-, rfl⟩ | ⟨head, rest, -, -, ⟨-, hi⟩ | ⟨-, rfl⟩⟩
    · exact ⟨rfl, rfl⟩
    · rcases insertToReadyQueue_ok hi with ⟨-, rfl⟩ | ⟨-, -, rfl⟩ <;> exact ⟨rfl, rfl⟩
    · exact ⟨rfl, rfl⟩
  rw [he.2]
  exact (Silent.of_eq he.1 thread).trans ((hc.signalled_wakeDue woken).2 thread)

end Scars.Kernel
