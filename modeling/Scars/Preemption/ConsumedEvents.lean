import Scars.Preemption.EventWaits

/-! What waits have consumed, at every instruction.
Events that the handler consumed for a thread are a part of what the thread asked for, and stay
until the thread collects the rest; nothing is consumed before a wait or twice in one.
-/

namespace Scars

open Memory Runs Function

variable {memory memory' : Memory} {fuel : Nat} {now : Instant} {more rest : List Instr}
  {context : ExecutionContext} {instr next : Instr} {thread : ThreadId}

/-- What has been consumed changes when the handler consumes and when a wait returns. -/
theorem Instr.perform_received (hp : instr.perform fuel now context memory = .ok (memory', more))
    : memory'.received = memory.received
      ∨ (∃ events,
          instr = .locked (.consumeEvents events)
          ∧ memory'.received
            = update memory.received memory.raw.currentThread
              (memory.raw.consumeEvents events).1)
      ∨ ∃ events timed,
          instr = .access (.collectEvents events timed)
          ∧ memory'.received = update memory.received memory.raw.currentThread 0 := by
  by_cases inside : ∃ op, instr = .locked op
  · obtain ⟨op, rfl⟩ := inside
    cases op.perform_effect hp with
    | wakes _ received => exact Or.inl received
    | blocks _ _ _ received => exact Or.inl received
    | waits _ received => exact Or.inl received
    | asks _ received => exact Or.inl received
    | consumes _ received => exact Or.inr (Or.inl ⟨_, rfl, received⟩)
  · cases Instr.perform_waits hp (not_exists.mp inside) with
    | same _ received => exact Or.inl received
    | sent after _ => exact Or.inl (by rw [after])
    | popped after _ => exact Or.inl (by rw [after])
    | cleared after => exact Or.inl (by rw [after])
    | collected after => exact Or.inr (Or.inr ⟨_, _, rfl, by rw [after]; rfl⟩)

theorem Continues.endsWait (continues : Continues instr more) (hm : next ∈ more)
    (ends : next.endsWait = true)
    : ∃ events, instr = .access (.tryWaitEvents events) := by
  cases continues with
  | tried => exact ⟨_, rfl⟩
  | acquired body restoreState =>
      have none : ∀ next ∈ body.code ++ [.release restoreState], next.endsWait = false := by
        refine List.forall_mem_append.mpr ⟨?_, List.forall_mem_singleton.mpr rfl⟩
        cases body with
        | op method => cases method <;> simp [Section.code, Instr.endsWait]
        | waitCurrentThreadEvent events deadline => simp [Section.code, Instr.endsWait]
        | closure mayBlock => simp [Section.code, Instr.endsWait]
      simp [none next hm] at ends
  | notified popped =>
      rcases popped with _ | thread | handler <;> simp [notifyCode, resumeCode] at hm
      subst hm
      cases ends
  | notifiesNext popped =>
      rcases popped with _ | thread | handler <;> simp [notifyCode, resumeCode] at hm <;>
        (first | subst hm | rcases hm with rfl | rfl) <;> cases ends
  | completes => simp at hm; rcases hm with rfl | rfl | rfl | rfl | rfl <;> cases ends
  | drained => rcases List.mem_pair.mp hm with rfl | rfl <;> cases ends
  | rescheduled => rcases List.mem_pair.mp hm with rfl | rfl <;> cases ends
  | pollsNext => rcases List.mem_pair.mp hm with rfl | rfl <;> cases ends
  | pollsAgain =>
      simp [interruptExit] at hm
      rcases hm with rfl | rfl | rfl <;> cases ends
  | nothing => cases hm
  | _ =>
      rw [List.mem_singleton.mp hm] at ends
      cases ends

theorem endsWait_call {call : Call} (ha : call.inInterrupt = true)
    : ∀ next ∈ call.code, next.endsWait = false ∧ next.willConsume = false := by
  cases call <;>
    simp [Call.inInterrupt, Call.code, resumeCode, Instr.endsWait, Instr.willConsume] at ha ⊢

theorem endsWait_syscall (call : Syscall) : ∀ next ∈ call.code, next.endsWait = false := by
  cases call <;> exact List.forall_mem_singleton.mpr rfl

namespace Machine

variable {machine machine' : Machine} {program : Program} {code : List Instr}

/-- A thread for which events were consumed is about to collect the rest of what it asked for,
and nothing is consumed for a thread twice.
-/
structure Consuming (machine : Machine) : Prop where
  sequenced : ∀ code, machine.HasCode code → Sequenced code
  ended : ∀ frame ∈ machine.frames, ∀ instr ∈ frame.code, instr.endsWait = false
  received
    : ∀ thread,
        machine.received thread = 0
        ∨ ∃ events,
            Collects events (machine.code thread)
            ∧ machine.received thread &&& events = machine.received thread
  unconsumed
    : ∀ frame ∈ machine.frames,
        ∀ instr ∈ frame.code,
          instr.willConsume = true → machine.received machine.raw.currentThread = 0

theorem start_consuming (program : Program) : (Machine.start program).Consuming where
  sequenced code hasCode := by
    rw [start_hasCode program hasCode]
    exact ⟨nofun, nofun, trivial⟩
  ended := nofun
  received _ := Or.inl rfl
  unconsumed := nofun

theorem Consuming.received_of_head (consuming : machine.Consuming)
    (head : machine.code thread = instr :: rest) (other : instr.endsWait = false)
    : machine.received thread = 0 := by
  rcases consuming.received thread with none | ⟨events, ⟨timed, left, inside | inside⟩, -⟩
  · exact none
  · rw [head] at inside
    cases inside
    cases other
  · rw [head] at inside
    cases inside
    cases other

theorem Consuming.idle_of_endsWait (consuming : machine.Consuming)
    (hrun : machine.running = instr :: rest) (ends : instr.endsWait = true)
    : machine.frames = [] := by
  by_contra active
  obtain ⟨top, below, frames⟩ := List.exists_cons_of_ne_nil active
  rw [running_of_frame frames] at hrun
  have none := consuming.ended top (by simp [frames]) instr (by simp [hrun])
  rw [none] at ends
  cases ends

theorem and_withoutFlag (sent events : Events)
    : sent &&& events.withoutFlag &&& events = sent &&& events.withoutFlag := by
  unfold Events.withoutFlag
  ext index bound
  simp only [BitVec.getElem_and, BitVec.getElem_not]
  grind

section

variable (consuming : machine.Consuming) (serving : machine.Serving)
  (hrun : machine.running = instr :: rest)
  (hp : instr.perform fuel now machine.context machine.toMemory = .ok (memory, more))

include consuming serving hrun hp

theorem Consuming.received_goOn (thread : ThreadId)
    : memory.received thread = 0
      ∨ ∃ events,
          Collects events ((machine.goOn memory (more ++ rest) instr.enters).code thread)
          ∧ memory.received thread &&& events = memory.received thread := by
  -- the code of a thread that is not current, or that an interrupt context runs on top of
  have others (kept : thread ≠ machine.raw.currentThread ∨ machine.frames ≠ [])
      : (machine.goOn memory (more ++ rest) instr.enters).code thread = machine.code thread := by
    rw [code_goOn]
    cases frames : machine.frames with
    | nil =>
        rw [code_setRunning_of_thread frames, update_of_ne]
        exact kept.resolve_right (by simp [frames])
    | cons top below => rw [code_setRunning_of_frame frames]
  rcases Instr.perform_received hp with
    he | ⟨events, rfl, received⟩ | ⟨events, timed, rfl, received⟩
  · rw [he]
    by_cases own : thread = machine.raw.currentThread ∧ machine.frames = []
    · obtain ⟨rfl, idle⟩ := own
      have code := hrun
      rw [running_of_thread idle] at code
      cases ends : instr.endsWait with
      | false => exact Or.inl (consuming.received_of_head code ends)
      | true =>
          rcases consuming.received machine.raw.currentThread with
            none | ⟨events, ⟨timed, left, inside | inside⟩, part⟩
          · exact Or.inl none
          · rw [code] at inside
            cases inside
            have nothing : more = [] := by cases hp; rfl
            rw [code_goOn, code_setRunning_of_thread idle, update_self, nothing]
            exact Or.inr ⟨events, ⟨timed, left, Or.inr rfl⟩, part⟩
          · -- the access that collects resets what was received
            rw [code] at inside
            cases inside
            have reset : memory.received machine.raw.currentThread = 0 := by
              cases hp
              exact update_self _ _ _
            rw [he] at reset
            exact Or.inl reset
    · rw [others (by tauto)]
      exact consuming.received thread
  · have awaited := serving.current hrun rfl
    have active : machine.frames ≠ [] := by
      intro idle
      rw [running_of_thread idle] at hrun
      have none := serving.threads machine.raw.currentThread
        (.locked (.consumeEvents events)) (by simp [hrun])
      cases none.1
    rw [others (Or.inr active), received]
    by_cases he : thread = machine.raw.currentThread
    · subst he
      obtain ⟨timed, left, inside⟩ := awaited
      rw [update_self]
      exact Or.inr ⟨events, ⟨timed, left, Or.inl inside⟩, and_withoutFlag _ events⟩
    · rw [update_of_ne he]
      exact consuming.received thread
  · rw [received]
    by_cases he : thread = machine.raw.currentThread
    · subst he
      exact Or.inl (update_self _ _ _)
    · rw [update_of_ne he, others (Or.inl he)]
      exact consuming.received thread

/-- A switch and the access that consumes leave nothing behind that consumes. -/
theorem Consuming.spent_goOn (hx : machine.Exclusive)
    (spends
      : memory.raw.currentThread ≠ machine.raw.currentThread
        ∨ ∃ events, instr = .locked (.consumeEvents events))
    : ∀ frame ∈ (machine.goOn memory (more ++ rest) instr.enters).frames,
        ∀ next ∈ frame.code, next.willConsume = false := by
  have poised := serving.poised _ (Or.inl hrun.symm)
  -- both are steps of the lowest interrupt context
  obtain ⟨⟨op, rfl⟩, only, frames, later⟩
      : (∃ op, instr = .locked op)
        ∧ ∃ only, machine.frames = [only] ∧ ∀ next ∈ rest, next.willConsume = false := by
    have calmed {code : List Instr} (calm : Calm code)
        : ∀ next ∈ code, next.willConsume = false := by
      intro next hm
      by_contra consumes
      rw [Bool.not_eq_false] at consumes
      exact service_of_willConsume consumes (calm next hm)
    rcases spends with switched | ⟨events, rfl⟩
    · obtain ⟨op, rfl, switches⟩ := (perform_currentThread hp).resolve_left switched
      have ha := hx.running (.locked op) (by simp [hrun])
      obtain ⟨only, frames⟩ := frames_of_lowest (level_of_switches ha switches)
      exact ⟨⟨op, rfl⟩, only, frames, calmed (poised.1 (Or.inl switches))⟩
    · obtain ⟨deadline, left, rfl⟩ :=
        (consuming.sequenced _ (Or.inl hrun.symm)).2.1 events rfl
      have ha := hx.running (.locked (.blockUnlessReceived events deadline))
        (by simp [hrun])
      obtain ⟨only, frames⟩ := frames_of_lowest (level_of_switches ha rfl)
      refine ⟨⟨_, rfl⟩, only, frames, List.forall_mem_cons.mpr ⟨rfl, ?_⟩⟩
      exact calmed (poised.2.1 (Or.inl rfl))
  intro frame active next hm
  rcases mem_frames_goOn active with ⟨handler, body, enters, -⟩ | ⟨-, left⟩ | lower
  · cases enters
  · rw [left] at hm
    rcases List.mem_append.mp hm with new | old
    · by_contra consumes
      rw [Bool.not_eq_false] at consumes
      obtain ⟨events, deadline, he⟩ :=
        (Instr.perform_continues hp).willConsume new consumes
      cases he
    · exact later next old
  · simp [frames] at lower

end

variable {event : Event}

section

variable (consuming : machine.Consuming)
include consuming

theorem Consuming.ended_step (hx : machine.Exclusive) (hs : machine.step fuel event = .ok machine')
    : ∀ frame ∈ machine'.frames, ∀ instr ∈ frame.code, instr.endsWait = false := by
  intro frame active next hm
  rcases mem_frames_step hs active hm with ⟨frame, active, hm⟩ | added
  · exact consuming.ended frame active next hm
  · cases added with
    | performed active hrun hp hm =>
        by_contra ends
        rw [Bool.not_eq_false] at ends
        obtain ⟨events, rfl⟩ := (Instr.perform_continues hp).endsWait hm ends
        have ha := hx.running (.access (.tryWaitEvents events)) (by simp [hrun])
        exact active (frames_of_thread (level_of_isThreads ha rfl))
    | entered hrun enters hm =>
        rcases body_of_enters enters with rfl | ⟨call, rfl⟩
        · rw [List.mem_singleton.mp hm]
          rfl
        · exact endsWait_syscall call next hm
    | called active hrun ha hm =>
        exact (endsWait_call (inInterrupt_of_active active ha) next hm).1
    | ends hm =>
        simp [interruptExit] at hm
        rcases hm with rfl | rfl | rfl <;> rfl
    | user => rfl

/-- The body of a system call consumes for the thread that is at the call. -/
theorem Consuming.unconsumed_enters (hx : machine.Exclusive)
    (hrun : machine.running = instr :: rest) {handler : HandlerId} {body : List Instr}
    (enters : instr.enters = some (handler, body)) (hm : next ∈ body)
    (consumes : next.willConsume = true)
    : machine.received machine.raw.currentThread = 0 := by
  have serves := service_of_willConsume consumes
  obtain ⟨service, serves⟩ := Option.ne_none_iff_exists'.mp serves
  have calls := service_enters enters next hm service serves
  obtain ⟨call, rfl⟩ : ∃ call, instr = .syscall call := by
    cases instr with
    | syscall call => exact ⟨call, rfl⟩
    | _ => cases calls
  have ha := hx.running (.syscall call) (by simp [hrun])
  have idle := frames_of_thread (level_of_isThreads ha rfl)
  rw [running_of_thread idle] at hrun
  exact consuming.received_of_head hrun rfl

theorem Consuming.unconsumed_step (hx : machine.Exclusive)
    (hs : machine.step fuel event = .ok machine')
    (he : machine'.raw.currentThread = machine.raw.currentThread)
    (received
      : machine'.received machine.raw.currentThread = machine.received machine.raw.currentThread)
    : ∀ frame ∈ machine'.frames,
        ∀ instr ∈ frame.code,
          instr.willConsume = true → machine'.received machine'.raw.currentThread = 0 := by
  intro frame active next hm consumes
  rw [he, received]
  rcases mem_frames_step hs active hm with ⟨frame, active, hm⟩ | added
  · exact consuming.unconsumed frame active next hm consumes
  · cases added with
    | performed active hrun hp hm =>
        obtain ⟨events, deadline, rfl⟩ :=
          (Instr.perform_continues hp).willConsume hm consumes
        obtain ⟨top, below, frames⟩ := List.exists_cons_of_ne_nil active
        rw [running_of_frame frames] at hrun
        exact consuming.unconsumed top (by simp [frames])
          (.tryWith (.waitCurrentThreadEvent events deadline)) (by simp [hrun]) rfl
    | entered hrun enters hm =>
        exact consuming.unconsumed_enters hx hrun enters hm consumes
    | called active hrun ha hm =>
        rw [(endsWait_call (inInterrupt_of_active active ha) next hm).2] at consumes
        cases consumes
    | ends hm =>
        simp [interruptExit] at hm
        rcases hm with rfl | rfl | rfl <;> cases consumes
    | user => cases consumes

theorem Consuming.received_user (hrun : machine.running = .user :: rest) (thread : ThreadId)
    : machine.received thread = 0
      ∨ ∃ events,
          Collects events ((machine.setRunning code).code thread)
          ∧ machine.received thread &&& events = machine.received thread := by
  cases frames : machine.frames with
  | nil =>
      rw [running_of_thread frames] at hrun
      rw [code_setRunning_of_thread frames]
      by_cases he : thread = machine.raw.currentThread
      · subst he
        exact Or.inl (consuming.received_of_head hrun rfl)
      · rw [update_of_ne he]
        exact consuming.received thread
  | cons top below =>
      rw [code_setRunning_of_frame frames]
      exact consuming.received thread

theorem Consuming.step (serving : machine.Serving) (hx : machine.Exclusive)
    (hs : machine.step fuel event = .ok machine')
    : machine'.Consuming := by
  have sequenced := keptByCode_sequenced.step hx consuming.sequenced hs
  have ended := consuming.ended_step hx hs
  have unconsumed := consuming.unconsumed_step hx hs
  cases step_ok hs with
  | @instr now instr rest more memory hrun hp =>
      have received := consuming.received_goOn serving hrun hp
      rw [toMemory_goOn] at unconsumed
      refine ⟨sequenced, ended, by rwa [toMemory_goOn], ?_⟩
      rw [toMemory_goOn]
      by_cases spends : memory.raw.currentThread ≠ machine.raw.currentThread
          ∨ ∃ events, instr = .locked (.consumeEvents events)
      · intro frame active next hm consumes
        rw [consuming.spent_goOn serving hrun hp hx spends frame active next
          hm] at consumes
        cases consumes
      · simp only [not_or, not_not] at spends
        obtain ⟨he, notConsumed⟩ := spends
        by_cases kept : memory.received machine.raw.currentThread
            = machine.received machine.raw.currentThread
        · exact unconsumed he kept
        · -- the wait returned
          intro frame active next hm consumes
          rcases Instr.perform_received hp with
            unchanged | ⟨events, isConsume, -⟩ | ⟨events, timed, -, reset⟩
          · exact absurd (by rw [unchanged]) kept
          · exact absurd ⟨events, isConsume⟩ notConsumed
          · rw [reset, he, update_self]
  | restore => exact ⟨sequenced, ended, consuming.received, unconsumed rfl rfl⟩
  | @call call rest hrun ha =>
      rw [toMemory_setRunning] at unconsumed
      refine ⟨sequenced, ended, ?_, ?_⟩
      · rw [toMemory_setRunning]
        exact consuming.received_user hrun
      · rw [toMemory_setRunning]
        exact unconsumed rfl rfl
  | @finish rest hrun ha =>
      rw [toMemory_setRunning] at unconsumed
      refine ⟨sequenced, ended, ?_, ?_⟩
      · rw [toMemory_setRunning]
        exact consuming.received_user hrun
      · rw [toMemory_setRunning]
        exact unconsumed rfl rfl
  | fire => exact ⟨sequenced, ended, consuming.received, unconsumed rfl rfl⟩

end

end Machine

end Scars
