import Scars.Preemption.Filing

/-! Whom the system call handler serves.
The handler blocks, or consumes events, on behalf of the current thread. That thread is inside
the call that it made, so the code it has left says what the handler does for it.
-/

namespace Scars

open Memory Runs

variable {memory memory' : Memory} {fuel : Nat} {now : Instant} {more rest code : List Instr}
  {context : ExecutionContext} {instr : Instr}

/-- What the handler does on behalf of the current thread that may block it. -/
inductive Service where
  | wait (queue : WaitQueueId)
  | events (mask : Events)
  | sleep
  deriving DecidableEq, Repr

/-- What a thread has left that is inside the call for the service. -/
def Service.Awaited : Service → List Instr → Prop
  | .wait queue, code => ∃ rest, code = .endWait queue :: rest
  | .events mask, code =>
      ∃ timed rest,
        code = .access .clearWaitedEvents :: .access (.collectEvents mask timed) :: rest
  | .sleep, code => ∃ rest, code = .user :: rest

def SectionOp.service : SectionOp → Option Service
  | .waitCurrentThread queue _ => some (.wait queue)
  | .delayThreadUntil _ => some .sleep
  | _ => none

def Section.service : Section → Option Service
  | .op method => method.service
  | .waitCurrentThreadEvent events _ => some (.events events)
  | .closure _ => none

def Locked.service : Locked → Option Service
  | .run op => op.service
  | .setWaitedEvents events => some (.events events)
  | .consumeEvents events => some (.events events)
  | .blockUnlessReceived events _ => some (.events events)
  | _ => none

def Syscall.service : Syscall → Option Service
  | .wait queue _ => some (.wait queue)
  | .waitEvent events _ => some (.events events)
  | .delayUntil _ => some .sleep
  | _ => none

namespace Instr

/-- The service that an instruction is a part of. -/
def service : Instr → Option Service
  | .tryWith body => body.service
  | .locked op => op.service
  | _ => none

/-- The service that a thread asks for. -/
def callsFor : Instr → Option Service
  | .syscall call => call.service
  | _ => none

/-- The thread that `wait_current_thread` is about to insert, and the queue. -/
def inserts : Instr → Option (ThreadId × WaitQueueId)
  | .locked (.raisePriority waiter queue _) => some (waiter, queue)
  | .locked (.insertWaiter waiter queue _) => some (waiter, queue)
  | _ => none

end Instr

/-- Code that serves nobody. -/
def Calm (code : List Instr) : Prop := ∀ instr ∈ code, instr.service = none

theorem service_section (body : Section)
    : ∀ next ∈ body.code, ∀ service, next.service = some service → body.service = some service := by
  cases body with
  | op method =>
      cases method <;> simp [Section.code, Instr.service, Locked.service, Section.service]
  | waitCurrentThreadEvent events deadline =>
      simp [Section.code, Instr.service, Locked.service, Section.service]
  | closure mayBlock => simp [Section.code, Instr.service]

theorem service_syscall (call : Syscall)
    : ∀ next ∈ call.code, ∀ service, next.service = some service → call.service = some service := by
  cases call <;>
    simp [Syscall.code, Instr.service, Section.service, SectionOp.service, Syscall.service]

theorem calm_notifyCode (popped : Option Suspendable) : Calm (notifyCode popped) := by
  rcases popped with _ | thread | handler
  · exact nofun
  · exact List.forall_mem_singleton.mpr rfl
  · exact nofun

theorem calm_call (call : Call) : Calm call.code := by
  unfold Calm
  cases call <;>
    simp [Call.code, resumeCode, waitEventsCode, Instr.service, Section.service,
      SectionOp.service]

theorem calm_exit (empty : Bool) : Calm (if empty then interruptExit else []) := by
  unfold Calm
  cases empty <;> simp [interruptExit, Instr.service]

/-- An instruction goes on with parts of the service that it is a part of. -/
theorem Continues.service (continues : Continues instr more)
    : ∀ next ∈ more, ∀ service, next.service = some service → instr.service = some service := by
  cases continues with
  | acquired body restoreState =>
      refine List.forall_mem_append.mpr ⟨service_section body, ?_⟩
      exact List.forall_mem_singleton.mpr nofun
  | notified popped =>
      intro next hm service serves
      rw [calm_notifyCode popped next hm] at serves
      cases serves
  | notifiesNext popped =>
      refine List.forall_mem_append.mpr ⟨fun next hm service serves => ?_, ?_⟩
      · rw [calm_notifyCode popped next hm] at serves
        cases serves
      · exact List.forall_mem_singleton.mpr nofun
  | checked => exact List.forall_mem_singleton.mpr nofun
  | _ =>
      simp [waitEventsCode, interruptExit, Instr.service, Locked.service, Section.service,
        SectionOp.service]

/-- A step inside a section is the last part that may switch, so it goes on with none. -/
theorem Continues.calm_locked {op : Locked} (continues : Continues (.locked op) more)
    : Calm more := by
  unfold Calm
  cases continues <;> simp [Instr.service, Locked.service]

theorem Continues.calm (continues : Continues instr more) (none : instr.service = none)
    : Calm more := by
  intro next hm
  cases serves : next.service with
  | none => rfl
  | some service =>
      have he := continues.service next hm service serves
      rw [none] at he
      cases he

/-- Nothing behind a switch, or behind the end of an interrupt, serves the thread that was
current before it.
-/
def Poised : List Instr → Prop
  | [] => True
  | instr :: rest => (instr.switches = true ∨ instr.isExit = true → Calm rest) ∧ Poised rest

theorem Calm.poised (calm : Calm code) : Poised code := by
  induction code with
  | nil => trivial
  | cons instr rest ih =>
      have later : Calm rest := fun next hm => calm next (by simp [hm])
      exact ⟨fun _ => later, ih later⟩

theorem Poised.append (poised : Poised rest)
    (stays : ∀ next ∈ more, next.switches = false ∧ next.isExit = false)
    : Poised (more ++ rest) := by
  induction more with
  | nil => exact poised
  | cons next more ih =>
      obtain ⟨⟨switches, exit⟩, later⟩ := List.forall_mem_cons.mp stays
      exact ⟨fun ends => by simp [switches, exit] at ends, ih later⟩

theorem poised_section (body : Section) (calm : Calm rest) (restoreState : RestoreState)
    : Poised (body.code ++ [.release restoreState] ++ rest) := by
  have released : Calm (.release restoreState :: rest) := List.forall_mem_cons.mpr ⟨rfl, calm⟩
  have dropped : Calm (.dropBorrow :: .release restoreState :: rest) :=
    List.forall_mem_cons.mpr ⟨rfl, released⟩
  rw [List.append_assoc, List.singleton_append]
  cases body with
  | op method =>
      cases method with
      | acquireScopedLock lock => exact ⟨fun _ => released, released.poised⟩
      | _ => exact ⟨nofun, fun _ => dropped, dropped.poised⟩
  | waitCurrentThreadEvent events deadline =>
      exact ⟨nofun, nofun, nofun, fun _ => dropped, dropped.poised⟩
  | closure mayBlock => exact ⟨nofun, released.poised⟩

theorem Continues.stays (continues : Continues instr more)
    (switches : instr.switches = false) (exit : instr.isExit = false)
    : ∀ next ∈ more, next.switches = false ∧ next.isExit = false := by
  cases continues with
  | acquired body restoreState =>
      refine List.forall_mem_append.mpr ⟨?_, List.forall_mem_singleton.mpr ⟨rfl, rfl⟩⟩
      cases body with
      | op method =>
          have inner : (Instr.locked (.run method)).switches = false := switches
          have code : ∀ next ∈ Section.code (.op method),
              next = .borrowMut ∨ next = .locked (.run method) ∨ next = .dropBorrow := by
            cases method <;> simp [Section.code]
          intro next hm
          rcases code next hm with rfl | rfl | rfl
          · exact ⟨rfl, rfl⟩
          · exact ⟨inner, rfl⟩
          · exact ⟨rfl, rfl⟩
      | waitCurrentThreadEvent events deadline => cases switches
      | closure mayBlock => exact List.forall_mem_singleton.mpr ⟨rfl, rfl⟩
  | notified popped =>
      rcases popped with _ | thread | handler
      · exact List.forall_mem_nil _
      · exact List.forall_mem_singleton.mpr ⟨rfl, rfl⟩
      · exact List.forall_mem_nil _
  | notifiesNext popped =>
      rcases popped with _ | thread | handler
      · exact List.forall_mem_singleton.mpr ⟨rfl, rfl⟩
      · exact List.forall_mem_cons.mpr ⟨⟨rfl, rfl⟩, List.forall_mem_singleton.mpr ⟨rfl, rfl⟩⟩
      · exact List.forall_mem_singleton.mpr ⟨rfl, rfl⟩
  | checked => exact List.forall_mem_singleton.mpr ⟨rfl, rfl⟩
  | polls saved => cases exit
  | pollsNext handler => cases exit
  | reschedules kind => cases exit
  | pollsAgain => cases exit
  | _ => simp [waitEventsCode, Instr.switches, Locked.switches, Section.switches,
      SectionOp.switches, Instr.isExit]

theorem poised_call (call : Call) (poised : Poised rest) : Poised (call.code ++ .user :: rest) := by
  refine Poised.append ⟨nofun, poised⟩ ?_
  cases call <;>
    simp [Call.code, resumeCode, waitEventsCode, Instr.switches, Section.switches,
      SectionOp.switches, Instr.isExit]

theorem poised_body {body exit : List Instr}
    (entered : body = [.user] ∨ ∃ call : Syscall, body = call.code) (calm : Calm exit)
    : Poised (body ++ exit) := by
  rcases entered with rfl | ⟨call, rfl⟩
  · exact ⟨nofun, calm.poised⟩
  · cases call <;> exact ⟨fun _ => calm, calm.poised⟩

theorem keptByCode_poised : Machine.KeptByCode Poised where
  perform {instr rest more _ _ _ _ _} hp before := by
    have continues := Instr.perform_continues hp
    by_cases ends : instr.switches = true ∨ instr.isExit = true
    · have calm := before.1 ends
      by_cases body : ∃ body, instr = .tryWith body
      · obtain ⟨body, rfl⟩ := body
        rcases Section.perform_ok hp with ⟨previous, -, -, rfl⟩ | ⟨-, -, rfl⟩
        · exact poised_section body calm _
        · exact calm.poised
      · -- only sections go on with parts of a service
        have none : Calm more := by
          cases instr with
          | tryWith inner => exact absurd ⟨inner, rfl⟩ body
          | locked op => exact continues.calm_locked
          | _ => exact continues.calm rfl
        have all : Calm (more ++ rest) := List.forall_mem_append.mpr ⟨none, calm⟩
        exact all.poised
    · simp only [not_or, Bool.not_eq_true] at ends
      exact before.2.append (continues.stays ends.1 ends.2)
  call call _ before := poised_call call before.2
  finish before := before.2
  enter entered exit ends := by
    refine poised_body entered ?_
    rcases ends with rfl | rfl
    · exact calm_exit true
    · exact calm_exit false

/-- Behind a system call stands the rest of the call that made it. -/
def Paired : List Instr → Prop
  | [] => True
  | instr :: rest => (∀ service, instr.callsFor = some service → service.Awaited rest) ∧ Paired rest

theorem Paired.append (paired : Paired rest) (none : ∀ next ∈ more, next.callsFor = none)
    : Paired (more ++ rest) := by
  induction more with
  | nil => exact paired
  | cons next more ih =>
      obtain ⟨first, later⟩ := List.forall_mem_cons.mp none
      exact ⟨fun service asks => (Option.some_ne_none service (asks.symm.trans first)).elim,
        ih later⟩

theorem paired_waitEvents (events : Events) (deadline : Option Instant) (paired : Paired rest)
    : Paired (waitEventsCode events deadline ++ rest) := by
  refine ⟨fun service asks => ?_, nofun, nofun, paired⟩
  cases asks
  exact ⟨deadline.isSome, rest, rfl⟩

theorem callsFor_section {body : Section} : ∀ next ∈ body.code, next.callsFor = none := by
  cases body with
  | op method => cases method <;> simp [Section.code, Instr.callsFor]
  | waitCurrentThreadEvent events deadline => simp [Section.code, Instr.callsFor]
  | closure mayBlock => simp [Section.code, Instr.callsFor]

theorem paired_continues (continues : Continues instr more) (paired : Paired rest)
    : Paired (more ++ rest) := by
  cases continues with
  | tried => exact paired_waitEvents _ none paired
  | acquired body restoreState =>
      refine paired.append (List.forall_mem_append.mpr ⟨callsFor_section, ?_⟩)
      exact List.forall_mem_singleton.mpr rfl
  | notified popped =>
      refine paired.append ?_
      rcases popped with _ | thread | handler <;> simp [notifyCode, resumeCode, Instr.callsFor]
  | notifiesNext popped =>
      refine paired.append ?_
      rcases popped with _ | thread | handler <;> simp [notifyCode, resumeCode, Instr.callsFor]
  | _ => exact paired.append (by simp [resumeCode, interruptExit, Instr.callsFor])

theorem paired_call (call : Call) (paired : Paired rest)
    : Paired (call.code ++ .user :: rest) := by
  have user : Paired (.user :: rest) := ⟨nofun, paired⟩
  cases call with
  | wait queue ceiling =>
      refine ⟨fun service asks => ?_, nofun, user⟩
      cases asks
      exact ⟨_, rfl⟩
  | waitEvents events => exact paired_waitEvents events none user
  | waitEventsUntil events deadline => exact paired_waitEvents events (some deadline) user
  | delayUntil time =>
      refine ⟨fun service asks => ?_, user⟩
      cases asks
      exact ⟨_, rfl⟩
  | _ => exact user.append (by simp [Call.code, resumeCode, Instr.callsFor, Syscall.service])

theorem keptByCode_paired : Machine.KeptByCode Paired where
  perform hp before := paired_continues (Instr.perform_continues hp) before.2
  call call _ before := paired_call call before.2
  finish before := before.2
  enter {body} entered exit ends := by
    have none : ∀ next ∈ body ++ exit, next.callsFor = none := by
      refine List.forall_mem_append.mpr ⟨?_, ?_⟩
      · rcases entered with rfl | ⟨call, rfl⟩
        · exact List.forall_mem_singleton.mpr rfl
        · cases call <;> simp [Syscall.code, Instr.callsFor]
      · rcases ends with rfl | rfl <;> simp [interruptExit, Instr.callsFor]
    simpa using (show Paired [] from trivial).append none

end Scars
