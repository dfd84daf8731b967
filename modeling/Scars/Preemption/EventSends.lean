import Scars.Preemption.ConsumedEvents
import Scars.Preemption.WaitingThreads

/-! Senders of events, from the first access of `send_events` to the resumption.
A sender updates the sent mask and then decides with the mask that it saw. As long as the thread
waits for the same events, a decision to notify leads to a request.
-/

namespace Scars

open Memory Runs

variable {memory memory' : Memory} {fuel : Nat} {now : Instant} {more rest : List Instr}
  {context : ExecutionContext} {instr : Instr} {thread : ThreadId}

theorem EventSet.sendCheck_congr {set set' : EventSet}
    (waited : set'.waitedEventsMask = set.waitedEventsMask) (sent : Events)
    : set'.sendCheck sent = set.sendCheck sent := by
  unfold EventSet.sendCheck
  rw [waited]

/-- The masks of the thread stay, or a sender has updated them and is about to decide. -/
def MasksKept (memory memory' : Memory) (more : List Instr) (thread : ThreadId) : Prop :=
  memory'.raw.events thread = memory.raw.events thread
  ∨ (memory'.raw.events thread).waitedEventsMask = (memory.raw.events thread).waitedEventsMask
    ∧ .access (.checkWaitedEvents thread (memory'.raw.events thread).sentEventsMask) ∈ more

theorem MasksKept.of_eq (he : memory'.raw.events = memory.raw.events)
    : MasksKept memory memory' more thread :=
  Or.inl (by rw [he])

theorem masksKept_setEvents {other : ThreadId} {set : EventSet} (hne : thread ≠ other)
    (he : memory'.raw = memory.raw.setEvents other set)
    : MasksKept memory memory' more thread := by
  refine Or.inl ?_
  rw [he]
  exact Function.update_of_ne hne _ _

/-- Outside of sections, only the end of its own wait changes the masks otherwise. -/
theorem Instr.perform_masks_of_outer
    (hp : instr.perform fuel now context memory = .ok (memory', more))
    (outer : ∀ op, instr ≠ .locked op)
    (notEnd : instr.endsWait = true → thread ≠ memory.raw.currentThread)
    : MasksKept memory memory' more thread := by
  cases Instr.perform_waits hp outer with
  | same waits _ => exact .of_eq waits.events
  | @sent receiver events after goesOn =>
      by_cases he : thread = receiver
      · subst he
        rw [after, goesOn]
        refine Or.inr ⟨?_, ?_⟩ <;> simp [Kernel.setEvents, EventSet.sendFetchOr]
      · exact masksKept_setEvents he (by rw [after])
  | @popped queue all after _ =>
      refine .of_eq ?_
      rw [after]
      unfold Kernel.popWaiter
      dsimp only
      split <;> rfl
  | cleared after => exact masksKept_setEvents (notEnd rfl) (by rw [after])
  | collected after => exact masksKept_setEvents (notEnd rfl) (by rw [after]; rfl)

/-- A blocked thread that stays blocked has its masks changed by senders only. -/
theorem Instr.perform_masks_of_blocked
    (hp : instr.perform fuel now context memory = .ok (memory', more))
    (notCurrent : thread ≠ memory.raw.currentThread)
    (notBlocked
      : ∀ op, instr = .locked op → op.blocks memory.raw.currentThread ≠ some thread)
    (blocked : memory'.raw.state thread = .blocked)
    : MasksKept memory memory' more thread := by
  by_cases inside : ∃ op, instr = .locked op
  · obtain ⟨op, rfl⟩ := inside
    cases op.perform_effect hp with
    | wakes wakes _ => exact Or.inl (wakes.blocked thread blocked).2
    | @blocks _ other switched wakes blocks blocking _ =>
        have hne : thread ≠ other := by
          rintro rfl
          exact notBlocked op rfl blocking
        rw [blocks.state, Function.update_of_ne hne] at blocked
        refine Or.inl ?_
        rw [blocks.events]
        exact (wakes.blocked thread blocked).2
    | waits hi _ =>
        obtain ⟨_, _, he, -⟩ := Kernel.insertToWaitQueue_waits hi
        exact .of_eq (by rw [he])
    | asks raw _ => exact masksKept_setEvents notCurrent raw
    | consumes raw _ => exact masksKept_setEvents notCurrent raw
  · exact Instr.perform_masks_of_outer hp (not_exists.mp inside) fun _ => notCurrent

namespace Machine

variable {machine machine' : Machine} {code : List Instr}

/-- A sender is between the two accesses of `send_events`, and will find that the thread is to be
resumed.
-/
def Notifies (machine : Machine) (thread : ThreadId) : Prop :=
  ∃ code sent,
    machine.HasCode code
    ∧ .access (.checkWaitedEvents thread sent) ∈ code
    ∧ (machine.raw.events thread).sendCheck sent = true

/-- A request to resume the thread is under way, or will be made. -/
def Answered (machine : Machine) (thread : ThreadId) : Prop :=
  machine.ResumePending thread ∨ machine.Notifies thread

/-- If what was sent to the thread is enough for its request, then somebody answers. -/
def Heeded (machine : Machine) (thread : ThreadId) : Prop :=
  (machine.raw.events thread).sendCheck (machine.raw.events thread).sentEventsMask = true
  → machine.Answered thread

/-- The masks of the thread stay in a step, or a sender has updated them and is about to decide. -/
def MasksStay (machine machine' : Machine) (thread : ThreadId) : Prop :=
  machine'.raw.events thread = machine.raw.events thread
  ∨ (machine'.raw.events thread).waitedEventsMask = (machine.raw.events thread).waitedEventsMask
    ∧ ∃ code,
        machine'.HasCode code
        ∧ .access (.checkWaitedEvents thread (machine'.raw.events thread).sentEventsMask) ∈ code

theorem MasksStay.waited (stay : machine.MasksStay machine' thread)
    : (machine'.raw.events thread).waitedEventsMask
      = (machine.raw.events thread).waitedEventsMask := by
  rcases stay with he | ⟨waited, -⟩
  · rw [he]
  · exact waited

/-- An answer stays until the thread is resumed, if the thread waits for the same events. -/
theorem Answered.step (answered : machine.Answered thread) (hx : machine.Exclusive)
    (intact : machine.Intact) {event : Event} (fifo : machine.PushesFifo fuel event)
    (hs : machine.step fuel event = .ok machine')
    (waited
      : (machine'.raw.events thread).waitedEventsMask
        = (machine.raw.events thread).waitedEventsMask)
    : machine'.Answered thread
      ∨ machine.Resumes event thread ∧ machine'.raw.state thread ≠ .blocked := by
  rcases answered with pending | ⟨code, sent, hasCode, hm, check⟩
  · exact (pending.step hx intact fifo hs).imp_left Or.inl
  · left
    rcases hasCode_stays hx hs hasCode hm nofun with
      ⟨code, stays, hm⟩ | ⟨now, rest, more, rfl, hrun, hp, left⟩
    · refine Or.inr ⟨code, sent, stays, hm, ?_⟩
      rw [EventSet.sendCheck_congr waited]
      exact check
    · -- the sender decides to notify
      have goesOn : more = resumeCode thread := by
        unfold Instr.perform Access.perform at hp
        simp only [check, if_true, Except.ok.injEq, Prod.mk.injEq] at hp
        exact hp.2.symm
      refine Or.inl (Or.inr ⟨_, left, .tryWith (.op (.resumeThread thread)), ?_, rfl⟩)
      rw [goesOn]
      exact List.mem_append_left _ (List.mem_singleton.mpr rfl)

/-- What was sent to a thread is still answered after a step that leaves its masks to senders. -/
theorem Heeded.step (heeded : machine.Heeded thread) (hx : machine.Exclusive)
    (intact : machine.Intact) {event : Event} (fifo : machine.PushesFifo fuel event)
    (hs : machine.step fuel event = .ok machine') (stay : machine.MasksStay machine' thread)
    (notResumed : machine.Resumes event thread → machine'.raw.state thread = .blocked)
    : machine'.Heeded thread := by
  intro enough
  rcases stay with he | ⟨waited, code, hasCode, hm⟩
  · rw [he] at enough
    refine ((heeded enough).step hx intact fifo hs (by rw [he])).resolve_right ?_
    rintro ⟨resumes, awake⟩
    exact awake (notResumed resumes)
  · exact Or.inr ⟨code, _, hasCode, hm, enough⟩

theorem masksStay_goOn (hx : machine.Exclusive) (hrun : machine.running = instr :: rest)
    (hp : instr.perform fuel now machine.context machine.toMemory = .ok (memory, more))
    (kept : MasksKept machine.toMemory memory more thread)
    : machine.MasksStay (machine.goOn memory (more ++ rest) instr.enters) thread := by
  unfold MasksStay
  rw [toMemory_goOn]
  refine kept.imp_right fun ⟨waited, hm⟩ => ⟨waited, more ++ rest, ?_, ?_⟩
  · exact (hx.hasCode_goOn hrun hp).mpr (Or.inl rfl)
  · exact List.mem_append_left _ hm

end Machine

end Scars
