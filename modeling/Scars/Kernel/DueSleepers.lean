import Scars.Kernel.Invariants

/-! Which threads a reschedule wakes up.
The wake-up loop moves exactly the due prefix of the sleep queue from the blocked to the
ready threads.
-/

namespace Scars.Kernel

open Runs OrderedInsert

variable {kernel kernel' : Kernel} {thread : ThreadId} {now : Instant}

/-- What the wake-up loop does to the lists: due threads move from the blocked to the ready
ones.
-/
structure WakesDue (now : Instant) (kernel kernel' : Kernel) : Prop where
  current : kernel'.currentThread = kernel.currentThread
  ready
    : ∀ thread,
        thread ∈ kernel'.readyQueue
        ↔ thread ∈ kernel.readyQueue ∨ .thread thread ∈ kernel.dueSleepers now
  blocked
    : ∀ thread,
        thread ∈ kernel'.blockedList
        ↔ thread ∈ kernel.blockedList ∧ .thread thread ∉ kernel.dueSleepers now

/-- Waking the head of the sleep queue moves its thread to the ready ones and leaves the
other sleepers and all deadlines alone.
-/
theorem Consistent.wakeupHead_effect (hc : kernel.Consistent) {fuel : Nat}
    {head : Suspendable} {rest : List Suspendable} (hq : kernel.sleepQueue = head :: rest)
    (woken : { kernel with sleepQueue := rest }.wakeupSuspendable fuel head = .ok kernel')
    : kernel'.sleepQueue = rest ∧ kernel'.deadline = kernel.deadline
      ∧ kernel'.currentThread = kernel.currentThread
      ∧ (∀ thread,
          thread ∈ kernel'.readyQueue
          ↔ thread ∈ kernel.readyQueue ∨ .thread thread = head)
      ∧ ∀ thread,
          thread ∈ kernel'.blockedList
          ↔ thread ∈ kernel.blockedList ∧ .thread thread ≠ head := by
  cases head with
  | interrupt handler =>
      have he := sameLists_setPendingExecutorPoll woken
      refine ⟨he.sleeping, he.deadline, he.current, fun thread => ?_, fun thread => ?_⟩
      · rw [he.ready]; simp
      · rw [he.blocked]; simp
  | thread sleeper =>
      have blocked := ((hc.filed sleeper).sleeping (by simp [hq])).1
      obtain ⟨notIdle, ⟨-, -, hi⟩ | ⟨notBlocked, -⟩⟩ := wakeupThread_ok woken
      · rcases insertToReadyQueue_ok hi with ⟨isIdle, -⟩ | ⟨-, -, rfl⟩
        · exact absurd isIdle notIdle
        · refine ⟨rfl, rfl, rfl, fun thread => ?_, fun thread => ?_⟩
          · rw [mem_insertPast]
            simp only [Suspendable.thread.injEq]
            exact or_comm
          · have unique := hc.unrepeated.blocked
            refine unique.mem_erase_iff.trans ?_
            simp only [ne_eq, Suspendable.thread.injEq]
            exact and_comm
      · exact absurd blocked notBlocked

/-- The sleepers that are due after one was woken. -/
theorem Consistent.dueSleepers_cons (hc : kernel.Consistent) {fuel : Nat} {head : Suspendable}
    {rest : List Suspendable} {middle : Kernel} (hq : kernel.sleepQueue = head :: rest)
    (due : kernel.isDue now head = true)
    (wakes : { kernel with sleepQueue := rest }.wakeupSuspendable fuel head = .ok middle)
    : kernel.dueSleepers now = head :: middle.dueSleepers now := by
  obtain ⟨sleeping, deadlines, -⟩ := hc.wakeupHead_effect hq wakes
  have sameDue : middle.isDue now = kernel.isDue now := by
    funext suspendable
    simp only [isDue, deadlines]
  simp only [dueSleepers, hq, sleeping, sameDue]
  rw [List.takeWhile_cons_of_pos due]

/-- The whole loop. Witness: induction on the rounds; each woken head is the first of the
due sleepers, and the rest of them are those of the next round.
-/
theorem Consistent.wakeDue_effect (hc : kernel.Consistent) {fuel rounds : Nat}
    (woken : Kernel.wakeDue fuel now rounds kernel = .ok kernel')
    : kernel.WakesDue now kernel' := by
  induction rounds generalizing kernel with
  | zero => cases woken
  | succ rounds ih =>
      rcases wakeDue_ok woken with
        ⟨nothing, alarm, rfl⟩ | ⟨head, rest, middle, hq, due, wakes, later⟩
      · exact ⟨rfl, by simp [nothing], by simp [nothing]⟩
      · obtain ⟨-, -, current, ready, blocked⟩ := hc.wakeupHead_effect hq wakes
        have after := ih (hc.wakeupHead hq wakes) later
        have first := hc.dueSleepers_cons hq due wakes
        refine ⟨after.current.trans current, fun thread => ?_, fun thread => ?_⟩
        · rw [after.ready, ready, first, List.mem_cons, or_assoc]
        · rw [after.blocked, blocked, first, List.mem_cons, not_or, and_assoc]

end Scars.Kernel
