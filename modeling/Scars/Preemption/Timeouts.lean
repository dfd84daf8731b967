import Scars.Kernel.Signals
import Scars.Preemption.ConsumedEvents

/-! The wake-up event, at every instruction.
A reschedule sets it, and the accesses that consume or return events may clear it. The access that
returns the events of a wait is the last of the code of the wait.
-/

namespace Scars

open Memory Runs Kernel

variable {memory memory' : Memory} {fuel : Nat} {now : Instant} {more rest code : List Instr}
  {context : ExecutionContext} {instr next : Instr} {thread : ThreadId} {events : Events}

/-- The instructions of a wait in front of the access that collects. -/
def Instr.leadsToEnd : Instr → Bool
  | .syscall (.waitEvent _ _) => true
  | .access .clearWaitedEvents => true
  | _ => false

/-- The end of a wait stands behind its beginning, and behind nothing else. -/
def Trailing : List Instr → Prop
  | [] => True
  | instr :: rest =>
      (instr.leadsToEnd = false → ∀ next ∈ rest, next.endsWait = false) ∧ Trailing rest

theorem Trailing.of_none (none : ∀ next ∈ code, next.endsWait = false) : Trailing code := by
  induction code with
  | nil => trivial
  | cons instr rest ih =>
      have later : ∀ next ∈ rest, next.endsWait = false :=
        fun next hm => none next (by simp [hm])
      exact ⟨fun _ => later, ih later⟩

theorem trailing_waitEvents (events : Events) (deadline : Option Instant)
    (none : ∀ next ∈ rest, next.endsWait = false)
    : Trailing (waitEventsCode events deadline ++ rest) :=
  ⟨nofun, nofun, fun _ => none, .of_none none⟩

theorem trailing_perform (trailing : Trailing (instr :: rest))
    (hp : instr.perform fuel now context memory = .ok (memory', more))
    : Trailing (more ++ rest) := by
  cases leads : instr.leadsToEnd with
  | true =>
      have nothing : more = [] := by
        unfold Instr.leadsToEnd at leads
        split at leads
        · cases hp; rfl
        · cases hp; rfl
        · cases leads
      rw [nothing]
      exact trailing.2
  | false =>
      have none := trailing.1 leads
      by_cases isTry : ∃ events, instr = .access (.tryWaitEvents events)
      · obtain ⟨events, rfl⟩ := isTry
        cases Instr.perform_continues hp with
        | nothing => exact .of_none none
        | tried => exact trailing_waitEvents _ _ none
      · refine .of_none (List.forall_mem_append.mpr ⟨fun next hm => ?_, none⟩)
        by_contra ends
        rw [Bool.not_eq_false] at ends
        exact isTry ((Instr.perform_continues hp).endsWait hm ends)

/-- An end of a wait with a deadline that is left was there before, behind the beginning. -/
theorem Trailing.timed (trailing : Trailing (instr :: rest))
    (hp : instr.perform fuel now context memory = .ok (memory', more))
    (hm : .access (.collectEvents events true) ∈ more ++ rest)
    : instr.leadsToEnd = true ∧ .access (.collectEvents events true) ∈ rest := by
  have old : .access (.collectEvents events true) ∈ rest := by
    refine (List.mem_append.mp hm).resolve_left fun new => ?_
    obtain ⟨asked, rfl⟩ := (Instr.perform_continues hp).endsWait new rfl
    cases Instr.perform_continues hp with
    | nothing => cases new
    | tried => simp [waitEventsCode] at new
  refine ⟨?_, old⟩
  by_contra leads
  rw [Bool.not_eq_true] at leads
  cases trailing.1 leads _ old

theorem trailing_call (call : Call) (none : ∀ next ∈ rest, next.endsWait = false)
    : Trailing (call.code ++ .user :: rest) := by
  have user : ∀ next ∈ .user :: rest, next.endsWait = false :=
    List.forall_mem_cons.mpr ⟨rfl, none⟩
  cases call with
  | waitEvents events => exact trailing_waitEvents _ _ user
  | waitEventsUntil events deadline => exact trailing_waitEvents _ _ user
  | _ =>
      refine .of_none (List.forall_mem_append.mpr ⟨?_, user⟩)
      simp [Call.code, resumeCode, Instr.endsWait]

theorem keptByCode_trailing : Machine.KeptByCode Trailing where
  perform hp before := trailing_perform before hp
  call call _ before := trailing_call call (before.1 rfl)
  finish before := before.2
  enter entered exit ends := by
    refine .of_none (List.forall_mem_append.mpr ⟨?_, ?_⟩)
    · rcases entered with rfl | ⟨call, rfl⟩
      · exact List.forall_mem_singleton.mpr rfl
      · exact endsWait_syscall call
    · rcases ends with rfl | rfl <;> simp [interruptExit, Instr.endsWait]

theorem Continues.sends (continues : Continues instr more) {receiver : ThreadId}
    : .access (.sendEvents receiver events) ∉ more := by
  cases continues with
  | acquired body restoreState =>
      cases body with
      | op method => cases method <;> simp [Section.code]
      | waitCurrentThreadEvent events deadline => simp [Section.code]
      | closure mayBlock => simp [Section.code]
  | notified popped => rcases popped with _ | thread | handler <;> simp [notifyCode, resumeCode]
  | notifiesNext popped =>
      rcases popped with _ | thread | handler <;> simp [notifyCode, resumeCode]
  | _ => simp [resumeCode, waitEventsCode, interruptExit]

theorem withoutFlag_apart (apart : events &&& Events.SCHEDULER_WAKEUP_EVENT = 0)
    : events.withoutFlag &&& Events.SCHEDULER_WAKEUP_EVENT = 0 := by
  unfold Events.withoutFlag
  rw [BitVec.and_assoc, BitVec.and_comm _ Events.SCHEDULER_WAKEUP_EVENT, ← BitVec.and_assoc,
    apart]
  exact BitVec.zero_and

/-- Inside a section only a reschedule signals, and only the access that consumes may clear. -/
theorem Locked.perform_silent {op : Locked} (notReschedule : ∀ kind, op ≠ .run (.reschedule kind))
    (notConsume : ∀ events, op ≠ .consumeEvents events)
    (hp : op.perform fuel now memory = .ok (memory', more))
    : memory.raw.Silent memory'.raw := by
  cases op.perform_step hp with
  | resumes _ resumed => exact silent_resumeThread resumed
  | resumesInterrupt resumed =>
      obtain ⟨polls, rfl⟩ := resumeInterrupt_ok resumed
      exact .of_eq rfl
  | schedules => exact .of_eq (by rw [leaveSleepQueue_eq])
  | reschedulesSleep => exact .of_eq (by rw [leaveSleepQueue_eq])
  | reschedules => exact absurd rfl (notReschedule _)
  | delays delayed =>
      obtain ⟨-, blocked⟩ := delayThreadUntil_ok delayed
      exact .of_eq ((blockThread_blocks blocked).events.trans events_handOver)
  | suspends suspended => exact silent_suspendThread suspended
  | handsOver => exact .of_eq events_handOver
  | locks locked => exact (adjusts_lockScoped locked).silent
  | unlocks released => exact (adjusts_releaseScopedLock released).silent
  | condReschedules => exact adjusts_condReschedule.silent
  | raises => exact (adjusts_setHandlerPriorities _ _).silent
  | inserts hi =>
      obtain ⟨_, _, rfl, -⟩ := insertToWaitQueue_waits hi
      exact .of_eq rfl
  | restores => exact (adjusts_setHandlerPriorities _ _).silent
  | blocks blocked => exact .of_eq (blockThread_blocks blocked).events
  | reads => exact .of_eq rfl
  | sleeps linked =>
      obtain ⟨-, rfl⟩ := insertSleeper_ok linked
      exact Kernel.Silent.trans (.of_eq rfl) (.of_eq (by rw [reprogramAlarm_eq]))
  | reprograms => exact (.of_eq (by rw [reprogramAlarm_eq]))
  | asks => exact silent_setEvents rfl
  | consumes => exact absurd rfl (notConsume _)
  | blocksUnless blocks =>
      rcases blockUnlessReceived_ok blocks with ⟨-, blocked⟩ | ⟨-, rfl⟩
      · exact .of_eq ((blockThread_blocks blocked).events.trans events_handOver)
      · exact .of_eq rfl

/-- Outside of sections only senders of the wake-up event signal, and only the end of a wait
clears.
-/
theorem Instr.perform_silent_of_outer
    (hp : instr.perform fuel now context memory = .ok (memory', more))
    (outer : ∀ op, instr ≠ .locked op)
    (notReturn : ∀ events timed, instr ≠ .access (.collectEvents events timed))
    (apart
      : ∀ receiver events,
          instr = .access (.sendEvents receiver events)
          → events &&& Events.SCHEDULER_WAKEUP_EVENT = 0)
    : memory.raw.Silent memory'.raw := by
  cases Instr.perform_waits hp outer with
  | same waits _ => exact .of_eq waits.events
  | @sent receiver events after _ =>
      rw [after]
      exact silent_setEvents
        (and_wakeup_of_apart _ (withoutFlag_apart (apart receiver events rfl)))
  | @popped queue all after _ =>
      rw [after]
      refine .of_eq ?_
      unfold popWaiter
      dsimp only
      split <;> rfl
  | cleared after =>
      rw [after]
      exact silent_setEvents rfl
  | collected _ => exact absurd rfl (notReturn _ _)

/-- What signals or clears is a reschedule, an access that consumes or returns events, or a send
of the wake-up event.
-/
theorem Instr.perform_silent (hp : instr.perform fuel now context memory = .ok (memory', more))
    (notReschedule : ∀ kind, instr ≠ .locked (.run (.reschedule kind)))
    (notConsume : ∀ events, instr ≠ .locked (.consumeEvents events))
    (notReturn : ∀ events timed, instr ≠ .access (.collectEvents events timed))
    (apart
      : ∀ receiver events,
          instr = .access (.sendEvents receiver events)
          → events &&& Events.SCHEDULER_WAKEUP_EVENT = 0)
    : memory.raw.Silent memory'.raw ∧ memory'.received = memory.received := by
  constructor
  · by_cases inside : ∃ op, instr = .locked op
    · obtain ⟨op, rfl⟩ := inside
      exact op.perform_silent (fun kind he => notReschedule kind (by rw [he]))
        (fun events he => notConsume events (by rw [he])) hp
    · exact Instr.perform_silent_of_outer hp (not_exists.mp inside) notReturn apart
  · rcases Instr.perform_received hp with
      he | ⟨events, consumes, -⟩ | ⟨events, timed, returns, -⟩
    · exact he
    · exact absurd consumes (notConsume events)
    · exact absurd returns (notReturn events timed)

end Scars
