import Mathlib.Data.List.Chain
import Scars.Preemption.EventSends
import Scars.Preemption.Settling

/-! Wake-ups of threads that wait for events, at every instruction.
The thread stores its request, consumes what was sent, and is blocked if that is not enough. From
the store on senders see the request, so whatever is sent later and is enough is answered.
-/

namespace Scars

open Memory Runs

variable {memory memory' : Memory} {fuel : Nat} {now : Instant} {more rest left : List Instr}
  {context : ExecutionContext} {instr next : Instr} {thread : ThreadId}

/-- The accesses of `wait_current_thread_event` behind the store of the request. -/
def Instr.isPrepared : Instr → Bool
  | .locked (.consumeEvents _) => true
  | .locked (.blockUnlessReceived _ _) => true
  | _ => false

/-- The request is stored before events are consumed, and they are consumed before the thread is
blocked.
-/
def Precedes (instr next : Instr) : Prop :=
  (∀ events,
    next = .locked (.consumeEvents events) → instr = .locked (.setWaitedEvents events))
  ∧ ∀ events deadline,
      next = .locked (.blockUnlessReceived events deadline)
      → instr = .locked (.consumeEvents events)

def Prepared (code : List Instr) : Prop := code.IsChain Precedes

theorem Precedes.of_plain (plain : next.isPrepared = false) : Precedes instr next := by
  refine ⟨fun events he => ?_, fun events deadline he => ?_⟩
  · subst he
    cases plain
  · subst he
    cases plain

theorem Prepared.of_plain (plain : ∀ next ∈ more, next.isPrepared = false) : Prepared more := by
  induction more with
  | nil => exact .nil
  | cons instr more ih =>
      have later := (List.forall_mem_cons.mp plain).2
      cases more with
      | nil => exact .singleton _
      | cons next more =>
          exact .cons_cons (.of_plain (later next (by simp))) (ih later)

theorem Precedes.plain (precedes : Precedes instr next)
    (hp : instr.perform fuel now context memory = .ok (memory', more)) (goesOn : more ≠ [])
    : next.isPrepared = false := by
  by_contra prepared
  refine goesOn ?_
  unfold Instr.isPrepared at prepared
  split at prepared
  next events =>
    have stored := precedes.1 events rfl
    subst stored
    have stores : (Locked.setWaitedEvents events).perform fuel now memory = .ok (memory', more) :=
      hp
    unfold Locked.perform at stores
    dsimp only at stores
    split at stores
    · cases stores
    · exact (setRaw_ok stores).2
  next events deadline =>
    have consumed := precedes.2 events deadline rfl
    subst consumed
    cases hp
    rfl
  · exact absurd rfl prepared

theorem prepared_section (body : Section) (restoreState : RestoreState)
    : Prepared (body.code ++ [.release restoreState]) := by
  cases body with
  | op method =>
      refine .of_plain ?_
      cases method <;> simp [Section.code, Instr.isPrepared]
  | waitCurrentThreadEvent events deadline =>
      simp [Prepared, Section.code, Precedes]
  | closure mayBlock => exact .of_plain (by simp [Section.code, Instr.isPrepared])

/-- What an instruction goes on with is in order, and begins with no prepared access. -/
theorem Continues.prepared (continues : Continues instr more)
    : Prepared more ∧ ∀ first ∈ more.head?, first.isPrepared = false := by
  have plain (none : ∀ next ∈ more, next.isPrepared = false)
      : Prepared more ∧ ∀ first ∈ more.head?, first.isPrepared = false :=
    ⟨.of_plain none, fun first hm => none first (List.mem_of_mem_head? hm)⟩
  cases continues with
  | acquired body restoreState =>
      refine ⟨prepared_section body restoreState, ?_⟩
      cases body with
      | op method => cases method <;> simp [Section.code, Instr.isPrepared]
      | waitCurrentThreadEvent events deadline => simp [Section.code, Instr.isPrepared]
      | closure mayBlock => simp [Section.code, Instr.isPrepared]
  | notified popped =>
      refine plain ?_
      rcases popped with _ | thread | handler <;> simp [notifyCode, resumeCode, Instr.isPrepared]
  | notifiesNext popped =>
      refine plain ?_
      rcases popped with _ | thread | handler <;> simp [notifyCode, resumeCode, Instr.isPrepared]
  | _ => exact plain (by simp [resumeCode, waitEventsCode, interruptExit, Instr.isPrepared])

theorem isPrepared_of_neutral (neutral : instr.isNeutral = true) : instr.isPrepared = false := by
  cases instr <;> first | rfl | cases neutral

theorem isPrepared_enter {body exit : List Instr}
    (entered : body = [.user] ∨ ∃ call : Syscall, body = call.code)
    (ends : exit = interruptExit ∨ exit = [])
    : ∀ next ∈ body ++ exit, next.isPrepared = false := by
  refine List.forall_mem_append.mpr ⟨?_, ?_⟩
  · rcases entered with rfl | ⟨call, rfl⟩
    · exact List.forall_mem_singleton.mpr rfl
    · exact fun next hm => isPrepared_of_neutral (Machine.isNeutral_syscall call next hm)
  · rcases ends with rfl | rfl <;> simp [interruptExit, Instr.isPrepared]

theorem keptByCode_prepared : Machine.KeptByCode Prepared where
  perform {instr rest more _ _ _ _ _} hp before := by
    obtain ⟨inOrder, -⟩ := (Instr.perform_continues hp).prepared
    refine List.IsChain.append inOrder (List.IsChain.tail before) fun last isLast next isNext => ?_
    have goesOn : more ≠ [] := by
      rintro rfl
      cases isLast
    obtain ⟨left, rfl⟩ := List.head?_eq_some_iff.mp isNext
    exact .of_plain ((List.isChain_cons_cons.mp before).1.plain hp goesOn)
  call call {rest} before := by
    have plain : Prepared call.code := .of_plain fun next hm =>
      isPrepared_of_neutral (Machine.neutral_call call next hm).1
    have later : List.IsChain Precedes (.user :: rest) := before
    refine List.IsChain.append plain later fun _ _ next isNext => ?_
    cases isNext
    exact .of_plain rfl
  finish before := List.IsChain.tail before
  enter entered _ ends := .of_plain (isPrepared_enter entered ends)

namespace Machine

variable {machine machine' : Machine} {program : Program} {code : List Instr}

theorem isNeutral_of_isPrepared (prepared : next.isPrepared = true)
    : next.isNeutral = false ∧ ∃ service, next.service = some service := by
  unfold Instr.isPrepared at prepared
  split at prepared
  · exact ⟨rfl, _, rfl⟩
  · exact ⟨rfl, _, rfl⟩
  · cases prepared

theorem Serving.active_of_service (serving : machine.Serving) (hasCode : machine.HasCode code)
    (hm : next ∈ code) {service : Service} (serves : next.service = some service)
    : machine.frames ≠ [] := by
  rcases hasCode_iff.mp hasCode with ⟨frame, active, -⟩ | ⟨thread, rfl⟩
  · exact List.ne_nil_of_mem active
  · rw [(serving.threads thread next hm).1] at serves
    cases serves

/-- A step of another context leaves the current thread alone while it is in a wait, but for
senders.
-/
structure Undisturbed (machine : Machine) (event : Event) (machine' : Machine) : Prop where
  current : machine'.raw.currentThread = machine.raw.currentThread
  received : machine'.received = machine.received
  masks : machine.MasksStay machine' machine.raw.currentThread
  notResumed : ∀ thread, ¬ machine.Resumes event thread

theorem Undisturbed.of_memory {event : Event} (he : machine'.toMemory = machine.toMemory)
    (idle : ∀ now op rest, event = .exec now → machine.running ≠ .locked op :: rest)
    : machine.Undisturbed event machine' where
  current := by rw [he]
  received := by rw [he]
  masks := Or.inl (by rw [he])
  notResumed := fun _ ⟨now, op, rest, isExec, hrun, _⟩ => idle now op rest isExec hrun

/-- A context that is inside of a wait comes to its next access itself, or keeps it in a step of
another context.
-/
theorem prepared_step (prepared : ∀ code, machine.HasCode code → Prepared code)
    (serving : machine.Serving) (consuming : machine.Consuming) (hx : machine.Exclusive)
    {event : Event} (hs : machine.step fuel event = .ok machine')
    (hasCode : machine'.HasCode (next :: left)) (isPrepared : next.isPrepared = true)
    : (∃ now instr,
        event = .exec now
        ∧ machine.running = instr :: next :: left
        ∧ Precedes instr next
        ∧ instr.perform fuel now machine.context machine.toMemory = .ok (machine'.toMemory, []))
      ∨ machine.HasCode (next :: left) ∧ machine.Undisturbed event machine' := by
  obtain ⟨inside, service, serves⟩ := isNeutral_of_isPrepared isPrepared
  cases step_ok hs with
  | @instr now instr rest more memory hrun hp =>
      rcases (hx.hasCode_goOn hrun hp).mp hasCode with
        own | other | ⟨handler, body, enters, entered⟩
      · left
        cases more with
        | nil =>
            rw [List.nil_append] at own
            subst own
            have inOrder := prepared _ (Or.inl hrun.symm)
            exact ⟨now, instr, rfl, hrun, (List.isChain_cons_cons.mp inOrder).1,
              by rw [toMemory_goOn]; exact hp⟩
        | cons first more =>
            have plain := (Instr.perform_continues hp).prepared.2 first rfl
            cases own
            rw [plain] at isPrepared
            cases isPrepared
      · -- the other context holds the lock, so that this one is outside of all sections
        have outer : ∀ op, instr ≠ .locked op := by
          rintro op rfl
          have balanced := hx.other_balanced (hx.depth_of_inside hrun rfl) other
          have neutral := balanced.neutral next (by simp)
          rw [inside] at neutral
          cases neutral
        have active := serving.active_of_service (Or.inr other) (by simp) serves
        have notEnd : instr.endsWait = false := by
          by_contra ends
          exact active (consuming.idle_of_endsWait hrun (by simpa using ends))
        refine Or.inr ⟨Or.inr other, ?_, ?_, ?_, ?_⟩
        · rw [toMemory_goOn]
          exact (perform_currentThread hp).resolve_right fun ⟨op, he, _⟩ => outer op he
        · rw [toMemory_goOn]
          rcases Instr.perform_received hp with
            he | ⟨events, he, -⟩ | ⟨events, timed, he, -⟩
          · exact he
          · exact absurd he (outer _)
          · rw [he] at notEnd
            cases notEnd
        · refine masksStay_goOn hx hrun hp ?_
          refine Instr.perform_masks_of_outer hp outer fun ends => ?_
          rw [notEnd] at ends
          cases ends
        · rintro thread ⟨_, op, _, -, he, -⟩
          rw [hrun] at he
          cases he
          exact outer op rfl
      · have plain := isPrepared_enter (body_of_enters enters) (exit_cases machine.frames.isEmpty)
          next (by rw [← entered]; simp)
        rw [plain] at isPrepared
        cases isPrepared
  | @restore _ frame below active ended =>
      refine Or.inr ⟨Or.inr ((otherCode_restore active).mpr hasCode), .of_memory rfl ?_⟩
      rintro now op rest - hrun
      rw [running_of_frame active, ended] at hrun
      cases hrun
  | @call call rest hrun ha =>
      rcases hasCode with own | other
      · rw [running_setRunning] at own
        cases calls : call.code with
        | nil =>
            rw [calls] at own
            cases own
            cases isPrepared
        | cons first more =>
            have neutral := (neutral_call call first (by simp [calls])).1
            rw [calls] at own
            cases own
            rw [isPrepared_of_neutral neutral] at isPrepared
            cases isPrepared
      · exact Or.inr ⟨Or.inr ((otherCode_setRunning machine _ _).mp other),
          .of_memory (toMemory_setRunning _ _) nofun⟩
  | @finish rest hrun ha =>
      rcases hasCode with own | other
      · rw [running_setRunning] at own
        subst own
        have precedes := (List.isChain_cons_cons.mp (prepared _ (Or.inl hrun.symm))).1
        unfold Instr.isPrepared at isPrepared
        split at isPrepared
        · cases precedes.1 _ rfl
        · cases precedes.2 _ _ rfl
        · cases isPrepared
      · exact Or.inr ⟨Or.inr ((otherCode_setRunning machine _ _).mp other),
          .of_memory (toMemory_setRunning _ _) nofun⟩
  | fire ha =>
      rcases hasCode_enter.mp hasCode with entered | before
      · have plain := isPrepared_enter (Or.inl rfl) (exit_cases machine.frames.isEmpty)
          next (by rw [← entered]; simp)
        rw [plain] at isPrepared
        cases isPrepared
      · exact Or.inr ⟨before, .of_memory rfl nofun⟩

end Machine

end Scars
