import Scars.Preemption.WaitingThreads

/-! Threads between their insertion into a wait queue and the block.
`wait_current_thread` has switched to another thread by then, so notifiers meet a waiter that is
not blocked yet. It stays inside of its call.
-/

namespace Scars

open Memory Runs

variable {memory memory' : Memory} {fuel : Nat} {now : Instant} {more rest : List Instr}
  {instr : Instr} {waiter : ThreadId}

/-- The thread that is in its queue and about to be blocked. -/
def Instr.settles : Instr → Option ThreadId
  | .locked (.restorePriority waiter _) => some waiter
  | .locked (.blockWaiter waiter) => some waiter
  | _ => none

def settlesNext (code : List Instr) : Option ThreadId := code.head?.bind Instr.settles

theorem moving_of_settles (settles : instr.settles = some waiter)
    : instr.moving = some waiter := by
  unfold Instr.settles at settles
  split at settles
  · exact settles
  · exact settles
  · cases settles

theorem not_resumes_of_settles (settles : instr.settles = some waiter)
    : instr.resumes = none := by
  unfold Instr.settles at settles
  split at settles
  · rfl
  · rfl
  · cases settles

theorem movingNext_of_settles {code : List Instr} (settles : settlesNext code = some waiter)
    : movingNext code = some waiter := by
  cases code with
  | nil => cases settles
  | cons first rest => exact moving_of_settles settles

/-- What an instruction goes on with settles the thread that it inserted or settled. -/
theorem Continues.settles (continues : Continues instr more)
    (settles : settlesNext more = some waiter)
    : instr.settles = some waiter
      ∨ ∃ queue saved, instr = .locked (.insertWaiter waiter queue saved) := by
  cases continues with
  | @inserted inserting queue saved =>
      cases settles
      exact Or.inr ⟨queue, saved, rfl⟩
  | restored => exact Or.inl settles
  | acquired body restoreState =>
      cases body with
      | op method => cases method <;> cases settles
      | waitCurrentThreadEvent events deadline => cases settles
      | closure mayBlock => cases settles
  | notified popped => rcases popped with _ | thread | handler <;> cases settles
  | notifiesNext popped => rcases popped with _ | thread | handler <;> cases settles
  | _ => cases settles

namespace Machine

variable {machine machine' : Machine} {program : Program} {code : List Instr}

/-- Who is about to be blocked after a step was so before it, or has just been inserted. -/
theorem Settled.settling_step (settled : machine.Settled) (hx : machine.Exclusive)
    {event : Event} (hs : machine.step fuel event = .ok machine')
    (hasCode : machine'.HasCode code) (settles : settlesNext code = some waiter)
    : (∃ code, machine.HasCode code ∧ settlesNext code = some waiter)
        ∧ ¬ machine.Resumes event waiter
      ∨ ∃ queue saved rest,
          machine.running = .locked (.insertWaiter waiter queue saved) :: rest
          ∧ .thread waiter ∈ machine'.raw.waitQueue queue := by
  have moves := movingNext_of_settles settles
  cases step_ok hs with
  | @instr now instr rest more memory hrun hp =>
      have later : ∀ next ∈ rest, next.isInner = false := settled.headed _ (Or.inl hrun.symm)
      rcases (hx.hasCode_goOn hrun hp).mp hasCode with
        rfl | other | ⟨handler, body, enters, rfl⟩
      · cases more with
        | nil =>
            rw [List.nil_append, movingNext_of_outer later] at moves
            cases moves
        | cons next more =>
            rcases (Instr.perform_continues hp).settles settles with
              before | ⟨queue, saved, rfl⟩
            · refine Or.inl ⟨⟨_, Or.inl hrun.symm, before⟩, ?_⟩
              rintro ⟨_, op, _, -, he, resumes⟩
              rw [hrun] at he
              cases he
              rw [not_resumes_of_settles before] at resumes
              cases resumes
            · have inserting
                  : (Locked.insertWaiter waiter queue saved).perform fuel now machine.toMemory
                    = .ok (memory, next :: more) :=
                hp
              obtain ⟨raw, hi, rfl, -⟩ := insertWaiter_ok inserting
              obtain ⟨_, _, rfl, linked, -⟩ := Kernel.insertToWaitQueue_waits hi
              exact Or.inr ⟨queue, saved, rest, hrun, by rw [toMemory_goOn]; exact linked⟩
      · refine Or.inl ⟨⟨code, Or.inr other, settles⟩, ?_⟩
        rintro ⟨_, op, left, -, he, resumes⟩
        rw [hx.movingNext_other he other] at moves
        cases moves
      · rw [movingNext_enter (body_of_enters enters) (exit_cases _)] at moves
        cases moves
  | @restore _ frame below active ended =>
      refine Or.inl ⟨⟨code, Or.inr ((otherCode_restore active).mpr hasCode), settles⟩, ?_⟩
      rintro ⟨_, op, _, -, he, -⟩
      rw [running_of_frame active, ended] at he
      cases he
  | @call call rest hrun ha =>
      rcases hasCode with rfl | other
      · have later : ∀ next ∈ call.code ++ .user :: rest, next.isInner = false := by
          refine List.forall_mem_append.mpr ⟨fun next hm => ?_, ?_⟩
          · exact isInner_of_neutral (neutral_call call next hm).1
          · exact List.forall_mem_cons.mpr ⟨rfl, settled.headed _ (Or.inl hrun.symm)⟩
        rw [running_setRunning, movingNext_of_outer later] at moves
        cases moves
      · exact Or.inl ⟨⟨code, Or.inr ((otherCode_setRunning machine code _).mp other), settles⟩,
          fun ⟨_, _, _, isExec, _⟩ => nomatch isExec⟩
  | @finish rest hrun ha =>
      rcases hasCode with rfl | other
      · have later : ∀ next ∈ rest, next.isInner = false := settled.headed _ (Or.inl hrun.symm)
        rw [running_setRunning, movingNext_of_outer later] at moves
        cases moves
      · exact Or.inl ⟨⟨code, Or.inr ((otherCode_setRunning machine code _).mp other), settles⟩,
          fun ⟨_, _, _, isExec, _⟩ => nomatch isExec⟩
  | fire ha =>
      rcases hasCode_enter.mp hasCode with rfl | before
      · rw [movingNext_enter (Or.inl rfl) (exit_cases _)] at moves
        cases moves
      · exact Or.inl ⟨⟨code, before, settles⟩, fun ⟨_, _, _, isExec, _⟩ => nomatch isExec⟩

/-- Who is about to be blocked by `wait_current_thread` is inside of `thread_wait`. -/
def Enqueued (machine : Machine) : Prop :=
  ∀ code waiter,
    machine.HasCode code
    → settlesNext code = some waiter
    → ∃ queue rest, machine.code waiter = .endWait queue :: rest

theorem start_enqueued (program : Program) : (Machine.start program).Enqueued := by
  intro code waiter hasCode settles
  rw [start_hasCode program hasCode] at settles
  cases settles

theorem Settled.notCurrent_of_settles (settled : machine.Settled) (hasCode : machine.HasCode code)
    (settles : settlesNext code = some waiter)
    : waiter ≠ machine.raw.currentThread := by
  obtain ⟨moving, listed, moves⟩ := settled.listed
  have mine := (moves waiter).mp ⟨code, hasCode, movingNext_of_settles settles⟩
  rw [mine] at listed
  exact listed.1.notCurrent

theorem Enqueued.step (enqueued : machine.Enqueued) (settled : machine.Settled)
    (serving : machine.Serving) (hx : machine.Exclusive) {event : Event}
    (hs : machine.step fuel event = .ok machine')
    : machine'.Enqueued := by
  intro code waiter hasCode settles
  have notCurrent := (settled.step hx hs).notCurrent_of_settles hasCode settles
  rw [code_step hx hs notCurrent]
  rcases settled.settling_step hx hs hasCode settles with
    ⟨⟨code, before, settles⟩, -⟩ | ⟨queue, saved, left, hrun, -⟩
  · exact enqueued code waiter before settles
  · obtain ⟨rest, inside⟩ := serving.inserting hrun rfl
    exact ⟨queue, rest, inside⟩

end Machine

end Scars
