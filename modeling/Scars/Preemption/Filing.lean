import Scars.Preemption.OuterSteps

/-! Thread states agree with the execution lists at every instruction.
While `wait_current_thread` is under way its thread is in no list, and interrupts may see that;
at all other times every thread is filed under its state.
-/

namespace Scars

open Memory Runs OrderedInsert

variable {memory memory' : Memory} {fuel : Nat} {now : Instant} {more rest : List Instr}
  {context : ExecutionContext} {instr : Instr} {kernel kernel' : Kernel} {deadline : Option Instant}

/-- The thread that an inner step of `wait_current_thread` moves. -/
def Locked.moving : Locked → Option ThreadId
  | .raisePriority waiter _ _ => some waiter
  | .insertWaiter waiter _ _ => some waiter
  | .restorePriority waiter _ => some waiter
  | .blockWaiter waiter => some waiter
  | _ => none

def Instr.moving : Instr → Option ThreadId
  | .locked op => op.moving
  | _ => none

/-- The thread that the next step of the code moves. -/
def movingNext (code : List Instr) : Option ThreadId := code.head?.bind Instr.moving

theorem moving_of_outer (outer : instr.isInner = false) : instr.moving = none := by
  cases instr with
  | locked op => cases op <;> first | rfl | cases outer
  | _ => rfl

theorem movingNext_of_outer (outer : ∀ next ∈ rest, next.isInner = false)
    : movingNext rest = none := by
  cases rest with
  | nil => rfl
  | cons first rest => exact moving_of_outer (outer first (by simp))

theorem movingNext_append (outer : ∀ next ∈ rest, next.isInner = false)
    : movingNext (more ++ rest) = movingNext more := by
  cases more with
  | nil => exact movingNext_of_outer outer
  | cons first more => rfl

theorem Kernel.Consistent.blockUnlessReceived_ok (hc : kernel.Consistent) {events received : Events}
    (blocks : kernel.blockUnlessReceived events deadline received = .ok kernel')
    : kernel'.Consistent := by
  rcases Kernel.blockUnlessReceived_ok blocks with ⟨-, blocked⟩ | ⟨-, rfl⟩
  · exact hc.blockUnlessReceived (Kernel.blockThread_ok blocked).1 blocks
  · exact hc

theorem Kernel.Consistent.insertSleeper (hc : kernel.Consistent) {handler : HandlerId}
    (hi : kernel.insertSleeper handler deadline = .ok kernel')
    : kernel'.Consistent := by
  obtain ⟨absent, rfl⟩ := insertSleeper_ok hi
  exact {
    running := hc.running
    idle := hc.idle
    filed := fun thread => (hc.filed thread).congr rfl .rfl .rfl .rfl
      fun sleeps => ⟨by simpa using sleeps, rfl⟩
    unrepeated := {
      hc.unrepeated with
      sleeping := nodup_insertPast absent hc.unrepeated.sleeping
    }
  }

theorem Kernel.Consistent.leaveSleepQueue {kernel : Kernel} (hc : kernel.Consistent)
    (suspendable : Suspendable)
    : (kernel.leaveSleepQueue suspendable).Consistent := by
  rw [Kernel.leaveSleepQueue_eq]
  exact hc.eraseSleeper suspendable

/-- A step inside a section files all threads, or leaves the moving one to the next step. -/
theorem Locked.perform_listed {op : Locked} (listed : memory.raw.Listed op.moving)
    (hp : op.perform fuel now memory = .ok (memory', more))
    : memory'.raw.Listed (movingNext more) := by
  cases op.perform_step hp with
  | resumes requested resumed =>
      have hc : memory.raw.Consistent := by rcases requested with rfl | rfl <;> exact listed
      exact hc.resumeThread resumed
  | resumesInterrupt resumed => exact Kernel.Consistent.resumeInterrupt listed resumed
  | schedules => exact Kernel.Consistent.leaveSleepQueue listed _
  | reschedulesSleep => exact Kernel.Consistent.leaveSleepQueue listed _
  | reschedules rescheduled => exact Kernel.Consistent.reschedule listed rescheduled
  | delays delayed => exact Kernel.Consistent.delayThreadUntil listed delayed
  | suspends suspended => exact Kernel.Consistent.suspendThread listed suspended
  | handsOver notIdle =>
      have moved := Kernel.Consistent.handOver listed notIdle
      rw [← Kernel.handOver_fst] at moved
      exact moved
  | locks locked =>
      exact Kernel.Consistent.congr listed (Kernel.adjusts_lockScoped locked).sameLists
  | unlocks released =>
      exact Kernel.Consistent.congr listed (Kernel.adjusts_releaseScopedLock released).sameLists
  | condReschedules => exact Kernel.Consistent.congr listed Kernel.adjusts_condReschedule.sameLists
  | raises => exact listed.congr (Kernel.adjusts_setHandlerPriorities _ _).sameLists
  | inserts hi => exact listed.congr (Kernel.sameLists_insertToWaitQueue hi)
  | restores => exact listed.congr (Kernel.adjusts_setHandlerPriorities _ _).sameLists
  | blocks blocked => exact listed.1.blockThread listed.2 blocked
  | reads => exact listed
  | sleeps linked =>
      exact (Kernel.Consistent.insertSleeper listed linked).congr
        Kernel.sameLists_reprogramAlarm
  | reprograms => exact Kernel.Consistent.congr listed Kernel.sameLists_reprogramAlarm
  | asks => exact Kernel.Consistent.congr listed (Kernel.sameLists_setEvents _ _)
  | consumes => exact Kernel.Consistent.congr listed (Kernel.sameLists_setEvents _ _)
  | blocksUnless blocks => exact Kernel.Consistent.blockUnlessReceived_ok listed blocks

namespace Machine

variable {machine machine' : Machine} {program : Program} {code : List Instr}

/-- Inner steps come first, and all threads are filed but the one that moves next. -/
structure Settled (machine : Machine) : Prop where
  headed : ∀ code, machine.HasCode code → Headed code
  listed
    : ∃ moving,
        machine.raw.Listed moving
        ∧ ∀ waiter,
            (∃ code, machine.HasCode code ∧ movingNext code = some waiter)
            ↔ moving = some waiter

theorem start_hasCode (program : Program) (hasCode : (Machine.start program).HasCode code)
    : code = [.user] := by
  rcases hasCode_iff.mp hasCode with ⟨frame, hm, -⟩ | ⟨thread, he⟩
  · cases hm
  · exact he.symm

theorem start_settled (program : Program) : (Machine.start program).Settled where
  headed code hasCode := by
    rw [start_hasCode program hasCode]
    exact nofun
  listed := by
    refine ⟨none, Kernel.start_consistent program, fun waiter => ⟨?_, nofun⟩⟩
    rintro ⟨code, hasCode, moving⟩
    rw [start_hasCode program hasCode] at moving
    cases moving

theorem movingNext_of_balanced {borrowed : Bool} (balanced : Balanced 0 borrowed code)
    : movingNext code = none :=
  movingNext_of_outer fun next hm => isInner_of_neutral (balanced.neutral next hm)

theorem movingNext_enter {body exit : List Instr}
    (entered : body = [.user] ∨ ∃ call : Syscall, body = call.code)
    (ends : exit = interruptExit ∨ exit = [])
    : movingNext (body ++ exit) = none :=
  movingNext_of_outer (List.forall_mem_append.mpr ⟨isInner_body entered, isInner_exit ends⟩)

/-- Who moves next after an instruction, among all contexts. -/
theorem Settled.moving_goOn (settled : machine.Settled) (hx : machine.Exclusive)
    (hrun : machine.running = instr :: rest)
    (hp : instr.perform fuel now machine.context machine.toMemory = .ok (memory, more))
    (waiter : ThreadId)
    : (∃ code,
        (machine.goOn memory (more ++ rest) instr.enters).HasCode code
        ∧ movingNext code = some waiter)
      ↔ movingNext more = some waiter
        ∨ ∃ code, machine.OtherCode code ∧ movingNext code = some waiter := by
  have later : ∀ next ∈ rest, next.isInner = false := settled.headed _ (Or.inl hrun.symm)
  have all {code : List Instr}
      : (machine.goOn memory (more ++ rest) instr.enters).HasCode code ↔ _ :=
    hx.hasCode_goOn hrun hp
  constructor
  · rintro ⟨code, hasCode, moving⟩
    rcases all.mp hasCode with rfl | other | ⟨handler, body, enters, rfl⟩
    · rw [movingNext_append later] at moving
      exact Or.inl moving
    · exact Or.inr ⟨code, other, moving⟩
    · rw [movingNext_enter (body_of_enters enters) (exit_cases _)] at moving
      cases moving
  · rintro (moving | ⟨code, other, moving⟩)
    · exact ⟨_, all.mpr (Or.inl rfl), by rwa [movingNext_append later]⟩
    · exact ⟨code, all.mpr (Or.inr (Or.inl other)), moving⟩

/-- While a step inside a section is next, no other context moves a thread. -/
theorem Exclusive.movingNext_other (hx : machine.Exclusive) {op : Locked}
    (hrun : machine.running = .locked op :: rest) (other : machine.OtherCode code)
    : movingNext code = none :=
  movingNext_of_balanced (hx.other_balanced (hx.depth_of_inside hrun rfl) other)

section

variable (settled : machine.Settled)
include settled

/-- All threads are filed but the one that the next step moves. -/
theorem Settled.listed_locked (hx : machine.Exclusive) {op : Locked}
    (hrun : machine.running = .locked op :: rest)
    : machine.raw.Listed op.moving := by
  obtain ⟨moving, listed, moves⟩ := settled.listed
  have mine : moving = op.moving := by
    refine Option.ext fun waiter => ?_
    rw [← moves waiter]
    constructor
    · rintro ⟨code, rfl | other, moving⟩
      · rwa [hrun] at moving
      · rw [hx.movingNext_other hrun other] at moving
        cases moving
    · exact fun moving => ⟨_, Or.inl hrun.symm, moving⟩
  rwa [mine] at listed

theorem Settled.goOn (hx : machine.Exclusive) (hrun : machine.running = instr :: rest)
    (hp : instr.perform fuel now machine.context machine.toMemory = .ok (memory, more))
    : ∃ moving,
        memory.raw.Listed moving
        ∧ ∀ waiter,
            (∃ code,
              (machine.goOn memory (more ++ rest) instr.enters).HasCode code
              ∧ movingNext code = some waiter)
            ↔ moving = some waiter := by
  obtain ⟨moving, listed, moves⟩ := settled.listed
  by_cases inside : ∃ op, instr = .locked op
  · -- nobody else moves a thread, so the step decides
    obtain ⟨op, rfl⟩ := inside
    refine ⟨_, op.perform_listed (settled.listed_locked hx hrun) hp,
      fun waiter => ?_⟩
    rw [settled.moving_goOn hx hrun hp]
    refine or_iff_left ?_
    rintro ⟨code, other, moving⟩
    rw [hx.movingNext_other hrun other] at moving
    cases moving
  · have outer := not_exists.mp inside
    refine ⟨moving, listed.outer (Instr.perform_outerEffect hp outer), fun waiter => ?_⟩
    rw [settled.moving_goOn hx hrun hp, ← moves waiter,
      movingNext_of_outer (Instr.perform_outer hp outer)]
    constructor
    · rintro (moving | ⟨code, other, moving⟩)
      · cases moving
      · exact ⟨code, Or.inr other, moving⟩
    · rintro ⟨code, rfl | other, moving⟩
      · rw [hrun] at moving
        cases instr <;> first | cases moving | exact absurd rfl (outer _)
      · exact Or.inr ⟨code, other, moving⟩

theorem Settled.rewrite (hrun : machine.running = .user :: rest) (none : movingNext code = none)
    : ∃ moving,
        (machine.setRunning code).raw.Listed moving
        ∧ ∀ waiter,
            (∃ other,
              (machine.setRunning code).HasCode other ∧ movingNext other = some waiter)
            ↔ moving = some waiter := by
  obtain ⟨moving, listed, moves⟩ := settled.listed
  rw [toMemory_setRunning]
  refine ⟨moving, listed, fun waiter => ?_⟩
  rw [← moves waiter]
  constructor
  · rintro ⟨left, rfl | other, moving⟩
    · rw [running_setRunning, none] at moving
      cases moving
    · exact ⟨left, Or.inr ((otherCode_setRunning machine left code).mp other), moving⟩
  · rintro ⟨left, rfl | other, moving⟩
    · rw [hrun] at moving
      cases moving
    · exact ⟨left, Or.inr ((otherCode_setRunning machine left code).mpr other), moving⟩

/-- Every step keeps threads filed, but the one that moves next. -/
theorem Settled.step (hx : machine.Exclusive) {event : Event}
    (hs : machine.step fuel event = .ok machine')
    : machine'.Settled := by
  refine ⟨keptByCode_headed.step hx settled.headed hs, ?_⟩
  cases step_ok hs with
  | @instr now instr rest more memory hrun hp =>
      rw [toMemory_goOn]
      exact settled.goOn hx hrun hp
  | @restore _ frame below active ended =>
      obtain ⟨moving, listed, moves⟩ := settled.listed
      refine ⟨moving, listed, fun waiter => ?_⟩
      rw [← moves waiter]
      constructor
      · rintro ⟨code, hasCode, moving⟩
        exact ⟨code, Or.inr ((otherCode_restore active).mpr hasCode), moving⟩
      · rintro ⟨code, rfl | other, moving⟩
        · simp [Machine.running, active, ended, movingNext] at moving
        · exact ⟨code, (otherCode_restore active).mp other, moving⟩
  | @call call rest hrun ha =>
      exact settled.rewrite hrun (movingNext_of_outer (List.forall_mem_append.mpr
        ⟨fun next hm => isInner_of_neutral (neutral_call call next hm).1,
          List.forall_mem_cons.mpr ⟨rfl, settled.headed _ (Or.inl hrun.symm)⟩⟩))
  | @finish rest hrun ha =>
      exact settled.rewrite hrun
        (movingNext_of_outer (settled.headed _ (Or.inl hrun.symm)))
  | fire ha =>
      obtain ⟨moving, listed, moves⟩ := settled.listed
      refine ⟨moving, listed, fun waiter => ?_⟩
      rw [← moves waiter]
      constructor
      · rintro ⟨code, hasCode, moving⟩
        rcases hasCode_enter.mp hasCode with rfl | before
        · rw [movingNext_enter (Or.inl rfl) (exit_cases _)] at moving
          cases moving
        · exact ⟨code, before, moving⟩
      · rintro ⟨code, hasCode, moving⟩
        exact ⟨code, hasCode_enter.mpr (Or.inr hasCode), moving⟩

end

end Machine

end Scars
