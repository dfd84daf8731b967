import Scars.Kernel.ListEffects
import Scars.Preemption.Requests

/-! `complete_pending` performs what was parked.
The deadlines of parked handlers are set before their moves in the sleep queue, so the
moves are compared with those that set each deadline in turn.
-/

namespace Scars

open Runs Function

/-- With enough rounds a loop of `complete_pending` completes the queued items in order and
leaves the queue empty. Witness: induction on the items.
-/
theorem Scheduler.drain_eq (fuel : Nat) {rounds : Nat} {queue : PendingQueue}
    {memory : QueueMemory PendingQueue Suspendable}
    {fifos : Fifos PendingQueue Suspendable} {items : List Suspendable}
    (hr : Represents memory fifos) (hq : fifos.items queue = items)
    (enough : items.length < rounds)
    : ∃ after fifos',
        Represents after fifos'
        ∧ fifos'.items = update fifos.items queue []
        ∧ ∀ raw,
            drain (fuel + 1) queue rounds ⟨raw, memory⟩
            = (items.foldlM (fun kernel item => completeNow (fuel + 1) queue item kernel) raw).map
                fun raw => ⟨raw, after⟩ := by
  induction items generalizing rounds memory fifos with
  | nil =>
      obtain ⟨less, rfl⟩ := Nat.exists_eq_succ_of_ne_zero (Nat.ne_of_gt enough)
      obtain ⟨after, popped, hr'⟩ := hr.popFront fuel queue
      have pop : fifos.pop queue = (none, fifos) := by simp [Fifos.pop, hq]
      rw [pop] at popped hr'
      refine ⟨after, fifos, hr', by rw [← hq, update_eq_self], ?_⟩
      intro raw
      simp [drain, popPending, popped, pure, Except.pure, bind, Except.bind, Except.map]
  | cons item rest ih =>
      obtain ⟨less, rfl⟩ := Nat.exists_eq_succ_of_ne_zero (Nat.ne_of_gt (Nat.zero_lt_of_lt enough))
      obtain ⟨memory', popped, hr'⟩ := hr.popFront fuel queue
      have pop
          : fifos.pop queue
            = (some item, {
                items := update fifos.items queue rest
                lastPopped := update fifos.lastPopped queue (some item) }) := by
        simp [Fifos.pop, hq]
      rw [pop] at popped hr'
      obtain ⟨after, fifos', final, emptied, drained⟩ :=
        ih hr' (by simp) (Nat.lt_of_succ_lt_succ enough)
      refine ⟨after, fifos', final, by rw [emptied, update_idem], ?_⟩
      intro raw
      rw [drain, popPending]
      simp only [popped, bind, Except.bind, List.foldlM_cons]
      cases completeNow (fuel + 1) queue item raw with
      | error fault => rfl
      | ok raw => exact drained raw

namespace Kernel

variable {thread : ThreadId} {suspendable : Suspendable} {deadline : Option Instant}
  {wakeups : List (HandlerId × Instant)} {rest : List (HandlerId × Instant)} {kernel : Kernel}
  {handler : HandlerId} {wakeup : HandlerId × Instant}

theorem commutes_insertToReadyQueue
    : Commutes (setDeadline suspendable deadline) (insertToReadyQueue thread) := by
  intro kernel
  unfold insertToReadyQueue
  dsimp only
  rw [apply_ite (Except.map _), apply_ite (Except.map _)]
  rfl

theorem commutes_removeFromBlockedList
    : Commutes (setDeadline suspendable deadline) (removeFromBlockedList thread) := by
  intro kernel
  unfold removeFromBlockedList
  rw [apply_ite (Except.map _)]
  rfl

theorem commutes_removeFromSuspendedList
    : Commutes (setDeadline suspendable deadline) (removeFromSuspendedList thread) := by
  intro kernel
  unfold removeFromSuspendedList
  rw [apply_ite (Except.map _)]
  rfl

theorem leaveSleepQueue_setDeadline {left : Suspendable} (kernel : Kernel)
    : (kernel.setDeadline suspendable deadline).leaveSleepQueue left
      = (kernel.leaveSleepQueue left).setDeadline suspendable deadline := by
  unfold leaveSleepQueue
  rw [apply_ite (setDeadline suspendable deadline)]
  rfl

theorem requestIfHigher_setDeadline (kernel : Kernel)
    : (kernel.setDeadline suspendable deadline).requestIfHigher thread
      = (kernel.requestIfHigher thread).setDeadline suspendable deadline := by
  unfold requestIfHigher
  dsimp only
  rw [apply_ite (setDeadline suspendable deadline)]
  rfl

theorem commutes_moveToReady
    : Commutes (setDeadline suspendable deadline) (moveToReady thread) := by
  intro kernel
  have he : (kernel.setDeadline suspendable deadline).state thread = kernel.state thread := rfl
  unfold moveToReady
  rw [he]
  cases kernel.state thread with
  | blocked =>
      refine Eq.trans ?_ (commutes_removeFromBlockedList.bind commutes_insertToReadyQueue
        ((kernel.setResumeEvent thread).leaveSleepQueue (.thread thread)))
      rw [← leaveSleepQueue_setDeadline]
      rfl
  | suspended =>
      exact commutes_removeFromSuspendedList.bind commutes_insertToReadyQueue
        (kernel.setResumeEvent thread)
  | started => exact commutes_insertToReadyQueue kernel
  | ready => rfl
  | running => rfl
  | created => rfl

theorem commutes_resumeThread
    : Commutes (setDeadline suspendable deadline) (resumeThread thread) :=
  commutes_moveToReady.bind (.pure requestIfHigher_setDeadline)

theorem commutes_setDeadlines {operation : Kernel → Except Fault Kernel}
    (commutes
      : ∀ suspendable deadline, Commutes (setDeadline suspendable deadline) operation)
    (wakeups : List (HandlerId × Instant))
    : Commutes (setDeadlines wakeups) operation := by
  induction wakeups with
  | nil =>
      intro kernel
      cases hp : operation kernel <;> simp [setDeadlines, hp, Except.map]
  | cons wakeup rest ih =>
      intro kernel
      refine (ih (kernel.setDeadline _ _)).trans ?_
      rw [commutes]
      cases operation kernel <;> rfl

/-- The move of `schedule_interrupt_wakeup`, before the alarm is programmed. -/
def requeue (handler : HandlerId) (kernel : Kernel) : Except Fault Kernel :=
  (kernel.leaveSleepQueue (.interrupt handler)).insertToSleepQueue (.interrupt handler)

theorem scheduleInterruptWakeup_eq (handler : HandlerId) (kernel : Kernel)
    : kernel.scheduleInterruptWakeup handler = (kernel.requeue handler).map reprogramAlarm := by
  change (kernel.requeue handler >>= fun moved => .ok moved.reprogramAlarm) = _
  cases kernel.requeue handler <;> rfl

def withAlarm (alarm : Option Instant) (kernel : Kernel) : Kernel := { kernel with alarm }

theorem reprogramAlarm_withAlarm (alarm : Option Instant) (kernel : Kernel)
    : (kernel.withAlarm alarm).reprogramAlarm = kernel.reprogramAlarm := by
  unfold reprogramAlarm withAlarm
  cases kernel.sleepQueue <;> rfl

theorem reprogramAlarm_eq_withAlarm (kernel : Kernel)
    : kernel.reprogramAlarm = kernel.withAlarm kernel.reprogramAlarm.alarm := by
  unfold reprogramAlarm withAlarm
  cases kernel.sleepQueue <;> rfl

theorem suspendSuspendableNow_eq (handler : HandlerId) (kernel : Kernel)
    : kernel.suspendSuspendableNow (.interrupt handler)
      = (kernel.requeue handler).map reprogramAlarm := by
  change (kernel.scheduleInterruptWakeup handler >>= fun moved => .ok moved.reprogramAlarm) = _
  rw [scheduleInterruptWakeup_eq]
  cases kernel.requeue handler with
  | error fault => rfl
  | ok moved =>
      refine congrArg Except.ok ?_
      rw [reprogramAlarm_eq_withAlarm moved, reprogramAlarm_withAlarm]
      exact (reprogramAlarm_eq_withAlarm moved)

theorem commutes_requeue {alarm : Option Instant}
    : Commutes (withAlarm alarm) (requeue handler) := by
  intro kernel
  unfold requeue
  rw [leaveSleepQueue_eq, leaveSleepQueue_eq]
  unfold insertToSleepQueue
  rw [apply_ite (Except.map _)]
  rfl

/-- The move of a handler does not see the deadline of another one that is not queued, or
that stays on its side.
-/
theorem requeue_setDeadline {handler other : HandlerId} {deadline : Option Instant}
    (hne : other ≠ handler)
    (sides
      : .interrupt other ∈ kernel.sleepQueue
        → deadlineLe (kernel.deadline (.interrupt other)) (kernel.deadline (.interrupt handler))
          = deadlineLe deadline (kernel.deadline (.interrupt handler)))
    : (kernel.setDeadline (.interrupt other) deadline).requeue handler
      = (kernel.requeue handler).map (setDeadline (.interrupt other) deadline) := by
  unfold requeue
  rw [leaveSleepQueue_setDeadline, leaveSleepQueue_eq]
  unfold insertToSleepQueue
  rw [apply_ite (Except.map _)]
  refine congrArg (ite _ _) (congrArg Except.ok ?_)
  have walk
      : OrderedInsert.insertPast
          (fun hq =>
            deadlineLe (update kernel.deadline (.interrupt other) deadline hq)
              (update kernel.deadline (.interrupt other) deadline (.interrupt handler)))
          (.interrupt handler) (kernel.sleepQueue.erase (.interrupt handler))
        = OrderedInsert.insertPast
            (fun hq =>
              deadlineLe (kernel.deadline hq) (kernel.deadline (.interrupt handler)))
            (.interrupt handler) (kernel.sleepQueue.erase (.interrupt handler)) := by
    apply OrderedInsert.insertPast_congr
    intro hq hm
    have apart : Suspendable.interrupt handler ≠ .interrupt other := by
      simpa using Ne.symm hne
    rw [update_of_ne apart]
    by_cases moved : hq = .interrupt other
    · subst moved
      rw [update_self, sides (List.mem_of_mem_erase hm)]
    · rw [update_of_ne moved]
  simp only [setDeadline, walk]

theorem interrupt_ne_of_mem {wakeup later : HandlerId × Instant}
    (first : wakeup.1 ∉ rest.map Prod.fst) (listed : later ∈ rest)
    : Suspendable.interrupt later.1 ≠ .interrupt wakeup.1 := by
  intro he
  rw [← Suspendable.interrupt.inj he] at first
  exact first (List.mem_map_of_mem listed)

theorem requeue_setDeadlines (absent : handler ∉ wakeups.map Prod.fst)
    (distinct : (wakeups.map Prod.fst).Nodup)
    (sides
      : ∀ wakeup ∈ wakeups,
          .interrupt wakeup.1 ∈ kernel.sleepQueue
          → deadlineLe (kernel.deadline (.interrupt wakeup.1))
              (kernel.deadline (.interrupt handler))
            = deadlineLe (some wakeup.2) (kernel.deadline (.interrupt handler)))
    : (kernel.setDeadlines wakeups).requeue handler
      = (kernel.requeue handler).map (setDeadlines wakeups) := by
  induction wakeups generalizing kernel with
  | nil => cases moved : kernel.requeue handler <;> simp [setDeadlines, moved, Except.map]
  | cons wakeup rest ih =>
      simp only [List.map_cons, List.mem_cons, not_or] at absent
      obtain ⟨first, distinct⟩ := List.nodup_cons.mp distinct
      have own : Suspendable.interrupt handler ≠ .interrupt wakeup.1 := by simpa using absent.1
      refine (ih absent.2 distinct ?_).trans ?_
      · intro later listed
        have apart := interrupt_ne_of_mem first listed
        simp only [setDeadline, update_of_ne apart, update_of_ne own]
        exact sides later (List.mem_cons_of_mem _ listed)
      · rw [requeue_setDeadline (Ne.symm absent.1) (sides wakeup (by simp))]
        cases kernel.requeue handler <;> rfl

/-- No handler that is queued crosses the deadline of an earlier one. -/
structure Compatible (wakeups : List (HandlerId × Instant)) (kernel : Kernel) : Prop where
  distinct : (wakeups.map Prod.fst).Nodup
  sides
    : wakeups.Pairwise fun earlier later =>
        .interrupt later.1 ∈ kernel.sleepQueue
        → deadlineLe (kernel.deadline (.interrupt later.1)) (some earlier.2)
          = deadlineLe (some later.2) (some earlier.2)

theorem requeue_frame {kernel kernel' : Kernel} (moved : kernel.requeue handler = .ok kernel')
    : kernel'.deadline = kernel.deadline
      ∧ ∀ hq ∈ kernel'.sleepQueue,
          hq = .interrupt handler ∨ hq ∈ kernel.sleepQueue := by
  unfold requeue at moved
  rw [leaveSleepQueue_eq] at moved
  obtain ⟨-, rfl⟩ := insertToSleepQueue_ok moved
  refine ⟨rfl, fun hq hm => ?_⟩
  rcases OrderedInsert.mem_insertPast.mp hm with he | kept
  · exact Or.inl he
  · exact Or.inr (List.mem_of_mem_erase kept)

theorem Compatible.requeue {kernel kernel' : Kernel}
    (compatible : Compatible (wakeup :: rest) kernel)
    (moved
      : (kernel.setDeadline (.interrupt wakeup.1) (some wakeup.2)).requeue wakeup.1
        = .ok kernel')
    : Compatible rest kernel'.reprogramAlarm := by
  obtain ⟨first, distinct⟩ := List.nodup_cons.mp compatible.distinct
  obtain ⟨deadlines, queue⟩ := requeue_frame moved
  refine ⟨distinct, ?_⟩
  apply ((List.pairwise_cons.mp compatible.sides).2).imp_of_mem
  intro earlier later _ listed kept hq
  have apart := interrupt_ne_of_mem first listed
  rw [reprogramAlarm_eq_withAlarm] at hq ⊢
  have before : .interrupt later.1 ∈ kernel.sleepQueue :=
    (queue _ hq).resolve_left apart
  simpa [withAlarm, deadlines, setDeadline, update_of_ne apart] using kept before

/-- The move of the first handler does not see the deadlines of the others. -/
theorem Compatible.requeue_head (compatible : Compatible (wakeup :: rest) kernel)
    : (kernel.setDeadlines (wakeup :: rest)).requeue wakeup.1
      = ((kernel.setDeadline (.interrupt wakeup.1) (some wakeup.2)).requeue wakeup.1).map
          (setDeadlines rest) := by
  obtain ⟨first, distinct⟩ := List.nodup_cons.mp compatible.distinct
  apply requeue_setDeadlines first distinct
  intro later listed hq
  have kept := (List.pairwise_cons.mp compatible.sides).1 later listed hq
  simpa [setDeadline, interrupt_ne_of_mem first listed] using kept

theorem foldlM_withAlarm (some : wakeups ≠ []) (alarm : Option Instant) (kernel : Kernel)
    : wakeups.foldlM (fun kernel wakeup => kernel.suspendSuspendableNow (.interrupt wakeup.1))
        (kernel.withAlarm alarm)
      = wakeups.foldlM
          (fun kernel wakeup => kernel.suspendSuspendableNow (.interrupt wakeup.1)) kernel := by
  obtain ⟨wakeup, rest, rfl⟩ := List.exists_cons_of_ne_nil some
  simp only [List.foldlM_cons, suspendSuspendableNow_eq, commutes_requeue kernel]
  cases kernel.requeue wakeup.1 with
  | error fault => rfl
  | ok moved => simp only [Except.map, reprogramAlarm_withAlarm]

theorem setDeadlines_withAlarm (wakeups : List (HandlerId × Instant)) (alarm : Option Instant)
    (kernel : Kernel)
    : (kernel.withAlarm alarm).setDeadlines wakeups
      = (kernel.setDeadlines wakeups).withAlarm alarm := by
  induction wakeups generalizing kernel with
  | nil => rfl
  | cons wakeup rest ih => exact ih (kernel.setDeadline _ _)

/-- Moving handlers whose deadlines are all set gives the queue and the alarm that setting
and moving them one by one gives. Witness: induction on the handlers; the alarm of an
earlier move is overwritten by the next.
-/
theorem Compatible.foldlM_eq (compatible : Compatible wakeups kernel)
    : wakeups.foldlM (fun kernel wakeup => kernel.suspendSuspendableNow (.interrupt wakeup.1))
        (kernel.setDeadlines wakeups)
      = wakeups.foldlM Wanted.wakeUp kernel := by
  induction wakeups generalizing kernel with
  | nil => rfl
  | cons wakeup rest ih =>
      rw [List.foldlM_cons, List.foldlM_cons, suspendSuspendableNow_eq, Wanted.wakeUp,
        scheduleInterruptWakeup_eq, compatible.requeue_head]
      cases moved : (kernel.setDeadline (.interrupt wakeup.1) (some wakeup.2)).requeue wakeup.1 with
      | error fault => rfl
      | ok kernel' =>
          refine Eq.trans ?_ (ih (compatible.requeue moved))
          rcases eq_or_ne rest [] with rfl | more
          · rfl
          · rw [reprogramAlarm_eq_withAlarm kernel', setDeadlines_withAlarm, foldlM_withAlarm more]
            change List.foldlM _ (kernel'.setDeadlines rest).reprogramAlarm rest = _
            rw [reprogramAlarm_eq_withAlarm, foldlM_withAlarm more]

end Kernel

end Scars
