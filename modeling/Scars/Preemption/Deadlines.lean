import Scars.Kernel.QueueLinks
import Scars.Preemption.Filing
import Scars.Preemption.LockedSteps
import Scars.Preemption.PendingSteps

/-! A handler has a deadline before it is put to sleep.
`schedule_interrupt_wakeup` stores the deadline first, so every request that is under way in some
context or parked in `pending_sleep` is for a handler that has one.
-/

namespace Scars

open Memory

variable {memory memory' : Memory} {fuel : Nat} {now : Instant} {more rest code : List Instr}
  {context : ExecutionContext} {instr : Instr} {has : HandlerId → Prop} {handler : HandlerId}

/-- The handler that an instruction puts to sleep, or is on the way to. -/
def Instr.schedules : Instr → Option HandlerId
  | .tryWith (.op (.scheduleInterruptWakeup handler)) => some handler
  | .locked (.run (.scheduleInterruptWakeup handler)) => some handler
  | .locked (.complete _ (.interrupt handler)) => some handler
  | .locked (.readDeadline handler) => some handler
  | .locked (.insertSleeper handler _) => some handler
  | _ => none

/-- The handler whose deadline an instruction stores. -/
def Instr.dates : Instr → Option HandlerId
  | .access (.setDeadline handler _) => some handler
  | _ => none

/-- Every handler that the code puts to sleep has a deadline by then. -/
def Dated (has : HandlerId → Prop) : List Instr → Prop
  | [] => True
  | instr :: rest =>
      (∀ handler, instr.schedules = some handler → has handler)
      ∧ Dated (fun handler => has handler ∨ instr.dates = some handler) rest

def Kernel.HasDeadline (kernel : Kernel) (handler : HandlerId) : Prop :=
  (kernel.deadline (.interrupt handler)).isSome = true

/-- The handlers among the suspendables have deadlines. -/
def Kernel.Schedulable (kernel : Kernel) : Suspendable → Prop
  | .thread _ => True
  | .interrupt handler => kernel.HasDeadline handler

theorem Dated.mono {wider : HandlerId → Prop} (dated : Dated has code)
    (implies : ∀ handler, has handler → wider handler)
    : Dated wider code := by
  induction code generalizing has wider with
  | nil => trivial
  | cons instr rest ih =>
      obtain ⟨first, later⟩ := dated
      refine ⟨fun handler schedules => implies handler (first handler schedules), ih later ?_⟩
      exact fun handler => Or.imp_left (implies handler)

theorem Dated.append (later : Dated has rest)
    (first : ∀ instr ∈ more, ∀ handler, instr.schedules = some handler → has handler)
    : Dated has (more ++ rest) := by
  induction more with
  | nil => exact later
  | cons instr more ih =>
      refine ⟨first instr (by simp), Dated.mono (ih fun next hm => ?_) fun _ => Or.inl⟩
      exact first next (by simp [hm])

/-- Code without any request. -/
def Quiet (code : List Instr) : Prop := code.all (fun instr => instr.schedules.isNone) = true

theorem Quiet.schedules (quiet : Quiet code) (hm : instr ∈ code) : instr.schedules = none := by
  have none := List.all_eq_true.mp quiet instr hm
  simpa using none

theorem Quiet.append (left : Quiet more) (right : Quiet rest) : Quiet (more ++ rest) := by
  unfold Quiet at *
  rw [List.all_append, left, right]
  rfl

theorem Quiet.dated (quiet : Quiet code) : Dated has code := by
  have all : Dated has (code ++ []) := Dated.append trivial fun instr hm handler schedules => by
    rw [quiet.schedules hm] at schedules
    cases schedules
  rwa [List.append_nil] at all

theorem quiet_notifyCode (popped : Option Suspendable) : Quiet (notifyCode popped) := by
  rcases popped with _ | thread | handler <;> rfl

theorem schedules_section {body : Section} (hm : instr ∈ body.code)
    (schedules : instr.schedules = some handler)
    : (Instr.tryWith body).schedules = some handler := by
  have quiet (none : Quiet body.code) : (Instr.tryWith body).schedules = some handler :=
    absurd schedules (by simp [none.schedules hm])
  cases body with
  | op method =>
      cases method with
      | scheduleInterruptWakeup other =>
          simp only [Section.code, List.mem_cons, List.not_mem_nil, or_false] at hm
          rcases hm with rfl | rfl | rfl
          · cases schedules
          · exact schedules
          · cases schedules
      | _ => exact quiet rfl
  | waitCurrentThreadEvent events deadline => exact quiet rfl
  | closure mayBlock => exact quiet rfl

section

variable (hp : instr.perform fuel now context memory = .ok (memory', more))
include hp

/-- An instruction goes on with requests of its own, or with one that it popped. -/
theorem Instr.perform_schedules {next : Instr} (hm : next ∈ more)
    (schedules : next.schedules = some handler)
    : instr.schedules = some handler
      ∨ ∃ queue, memory.pending.popFront fuel queue
          = .ok (some (.interrupt handler), memory'.pending) := by
  have quiet (none : Quiet more) : instr.schedules = some handler :=
    absurd schedules (by simp [none.schedules hm])
  cases Instr.perform_continues hp with
  | acquired body restoreState =>
      rcases List.mem_append.mp hm with inside | last
      · exact Or.inl (schedules_section inside schedules)
      · cases List.mem_singleton.mp last
        cases schedules
  | drained queue suspendable =>
      obtain ⟨popped, pending, taken, rfl, goesOn⟩ := Memory.drain_ok hp
      cases popped with
      | none => cases goesOn
      | some popped =>
          cases goesOn
          rcases List.mem_pair.mp hm with rfl | rfl
          · cases suspendable with
            | thread thread => cases schedules
            | interrupt other =>
                cases schedules
                exact Or.inr ⟨queue, taken⟩
          · cases schedules
  | scheduled =>
      cases List.mem_singleton.mp hm
      exact Or.inl schedules
  | rescheduled =>
      rcases List.mem_pair.mp hm with rfl | rfl
      · exact Or.inl schedules
      · cases schedules
  | read deadline =>
      cases List.mem_singleton.mp hm
      exact Or.inl schedules
  | notified popped => exact Or.inl (quiet (quiet_notifyCode popped))
  | notifiesNext popped => exact Or.inl (quiet ((quiet_notifyCode popped).append rfl))
  | _ => exact Or.inl (quiet rfl)

theorem Instr.perform_hasDeadline
    (has : memory.raw.HasDeadline handler ∨ instr.dates = some handler)
    : memory'.raw.HasDeadline handler := by
  unfold Kernel.HasDeadline
  rcases has with before | dates
  · rcases Instr.perform_handlerDeadline hp handler with he | ⟨wakeupTime, -, stored⟩
    · rw [he]
      exact before
    · rw [stored]
      rfl
  · cases instr with
    | access access =>
        cases access with
        | setDeadline other wakeupTime =>
            cases dates
            obtain ⟨rfl, -⟩ := setRaw_ok hp
            simp [Kernel.setDeadline]
        | _ => cases dates
    | _ => cases dates

theorem Schedulable.perform (suspendable : Suspendable)
    (schedulable : memory.raw.Schedulable suspendable)
    : memory'.raw.Schedulable suspendable := by
  cases suspendable with
  | thread thread => trivial
  | interrupt handler => exact Instr.perform_hasDeadline hp (Or.inl schedulable)

end

theorem Dated.perform (dated : Dated memory.raw.HasDeadline (instr :: rest))
    (parked : LinksOnly memory.raw.Schedulable memory.pending)
    (hp : instr.perform fuel now context memory = .ok (memory', more))
    : Dated memory'.raw.HasDeadline (more ++ rest) := by
  obtain ⟨first, later⟩ := dated
  refine Dated.append (later.mono fun handler => Instr.perform_hasDeadline hp) ?_
  intro next hm handler schedules
  refine Instr.perform_hasDeadline hp (Or.inl ?_)
  rcases Instr.perform_schedules hp hm schedules with he | ⟨queue, taken⟩
  · exact first handler he
  · exact (parked.popFront taken).2 _ rfl

theorem schedulable_of_defers {body : Section} {queue : PendingQueue} {suspendable : Suspendable}
    (defers : body.defers = some (queue, suspendable)) {kernel : Kernel}
    (first : ∀ handler, (Instr.tryWith body).schedules = some handler → kernel.HasDeadline handler)
    : kernel.Schedulable suspendable := by
  unfold Section.defers at defers
  split at defers
  · cases defers; trivial
  · cases defers; exact first _ rfl
  · cases defers

theorem Dated.parked (dated : Dated memory.raw.HasDeadline (instr :: rest))
    (parked : LinksOnly memory.raw.Schedulable memory.pending)
    (hp : instr.perform fuel now context memory = .ok (memory', more))
    : LinksOnly memory'.raw.Schedulable memory'.pending := by
  refine LinksOnly.mono ?_ (Schedulable.perform hp)
  cases Instr.perform_pending hp with
  | same pending => rwa [pending]
  | deferred _ defers pushed _ =>
      exact parked.pushBack (schedulable_of_defers defers dated.1) pushed
  | drained taken _ => exact (parked.popFront taken).1
  | popped taken _ => exact (parked.popFront taken).1

theorem Dated.call (call : Call) (later : Dated has rest) : Dated has (call.code ++ rest) := by
  have quiet (none : Quiet call.code) : Dated has (call.code ++ rest) :=
    later.append fun instr hm handler schedules => by
      rw [none.schedules hm] at schedules
      cases schedules
  cases call with
  | scheduleInterruptWakeup handler wakeupTime =>
      refine ⟨nofun, ?_, later.mono fun _ known => Or.inl (Or.inl known)⟩
      rintro other ⟨⟩
      exact Or.inr rfl
  | _ => exact quiet rfl

theorem quiet_enter {body exit : List Instr}
    (entered : body = [.user] ∨ ∃ call : Syscall, body = call.code)
    (ends : exit = interruptExit ∨ exit = [])
    : Quiet (body ++ exit) := by
  refine Quiet.append ?_ (by rcases ends with rfl | rfl <;> rfl)
  rcases entered with rfl | ⟨call, rfl⟩
  · rfl
  · cases call <;> rfl

namespace Machine

variable {machine machine' : Machine} {program : Program}

/-- All requests for sleep are for handlers with deadlines. -/
structure DatesFirst (machine : Machine) : Prop where
  code : ∀ code, machine.HasCode code → Dated machine.raw.HasDeadline code
  parked : LinksOnly machine.raw.Schedulable machine.pending

theorem start_datesFirst (program : Program) : (Machine.start program).DatesFirst where
  code code hasCode := by
    rw [start_hasCode program hasCode]
    exact ⟨nofun, trivial⟩
  parked := linksOnly_new

theorem DatesFirst.setRunning (dates : machine.DatesFirst) {code : List Instr}
    (dated : Dated machine.raw.HasDeadline code)
    : (machine.setRunning code).DatesFirst := by
  refine ⟨fun other hasCode => ?_, by rw [toMemory_setRunning]; exact dates.parked⟩
  rw [toMemory_setRunning]
  rcases hasCode with rfl | elsewhere
  · rw [running_setRunning]
    exact dated
  · exact dates.code other (Or.inr ((otherCode_setRunning machine other _).mp elsewhere))

theorem DatesFirst.step (dates : machine.DatesFirst) (hx : machine.Exclusive)
    {event : Event} (hs : machine.step fuel event = .ok machine')
    : machine'.DatesFirst := by
  cases step_ok hs with
  | @instr now instr rest more memory hrun hp =>
      have before := dates.code _ (Or.inl hrun.symm)
      refine ⟨fun code hasCode => ?_, ?_⟩
      · rw [toMemory_goOn]
        rcases (hx.hasCode_goOn hrun hp).mp hasCode with
          rfl | other | ⟨handler, body, enters, rfl⟩
        · exact before.perform dates.parked hp
        · exact (dates.code code (Or.inr other)).mono fun handler has =>
            Instr.perform_hasDeadline hp (Or.inl has)
        · exact (quiet_enter (body_of_enters enters) (exit_cases _)).dated
      · rw [toMemory_goOn]
        exact before.parked dates.parked hp
  | restore active ended =>
      exact ⟨fun code hasCode => dates.code code (Or.inr ((otherCode_restore active).mpr hasCode)),
        dates.parked⟩
  | @call call rest hrun ha =>
      have before := dates.code _ (Or.inl hrun.symm)
      exact dates.setRunning (before.call call)
  | @finish rest hrun ha =>
      have before := dates.code _ (Or.inl hrun.symm)
      exact dates.setRunning (before.2.mono fun handler has => has.resolve_right nofun)
  | fire ha =>
      refine ⟨fun code hasCode => ?_, dates.parked⟩
      rcases hasCode_enter.mp hasCode with rfl | before
      · exact (quiet_enter (Or.inl rfl) (exit_cases _)).dated
      · exact dates.code code before

end Machine

end Scars
