import Scars.Preemption.OuterWaits
import Scars.Preemption.ServedThreads

/-! Waits for events, at every instruction.
What a wait has consumed is kept until the wait returns it. The handler consumes once for each
wait, and the thread that waits stands before the access that collects the rest.
-/

namespace Scars

open Memory Runs

variable {memory memory' : Memory} {fuel : Nat} {now : Instant} {more rest : List Instr}
  {context : ExecutionContext} {instr next : Instr} {thread : ThreadId}

namespace Instr

/-- The accesses at the end of `wait_events` and `wait_events_until`. -/
def endsWait : Instr → Bool
  | .access .clearWaitedEvents => true
  | .access (.collectEvents _ _) => true
  | _ => false

/-- The parts of `wait_current_thread_event` up to the access that consumes events. -/
def willConsume : Instr → Bool
  | .tryWith (.waitCurrentThreadEvent _ _) => true
  | .locked (.setWaitedEvents _) => true
  | .locked (.consumeEvents _) => true
  | _ => false

end Instr

/-- The thread is inside a wait, behind the system call, and collects these events. -/
def Collects (events : Events) (code : List Instr) : Prop :=
  ∃ timed rest,
    code = .access .clearWaitedEvents :: .access (.collectEvents events timed) :: rest
    ∨ code = .access (.collectEvents events timed) :: rest

/-- The accesses of `wait_current_thread_event` follow each other. -/
def Sequenced : List Instr → Prop
  | [] => True
  | instr :: rest =>
      (∀ events,
        instr = .locked (.setWaitedEvents events)
        → ∃ deadline left,
            rest
            = .locked (.consumeEvents events)
              :: .locked (.blockUnlessReceived events deadline) :: left)
      ∧ (∀ events,
          instr = .locked (.consumeEvents events)
          → ∃ deadline left, rest = .locked (.blockUnlessReceived events deadline) :: left)
      ∧ Sequenced rest

/-- The accesses to the masks inside a section. -/
def Instr.isMaskAccess : Instr → Bool
  | .locked (.setWaitedEvents _) => true
  | .locked (.consumeEvents _) => true
  | _ => false

theorem Sequenced.cons (sequenced : Sequenced rest) (other : instr.isMaskAccess = false)
    : Sequenced (instr :: rest) := by
  refine ⟨fun events he => ?_, fun events he => ?_, sequenced⟩
  · subst he
    cases other
  · subst he
    cases other

theorem Sequenced.append (sequenced : Sequenced rest)
    (other : ∀ next ∈ more, next.isMaskAccess = false)
    : Sequenced (more ++ rest) := by
  induction more with
  | nil => exact sequenced
  | cons next more ih =>
      obtain ⟨first, later⟩ := List.forall_mem_cons.mp other
      exact (ih later).cons first

theorem isMaskAccess_of_neutral (neutral : instr.isNeutral = true)
    : instr.isMaskAccess = false := by
  cases instr <;> first | rfl | cases neutral

theorem sequenced_section (body : Section) (sequenced : Sequenced rest)
    (restoreState : RestoreState)
    : Sequenced (body.code ++ [.release restoreState] ++ rest) := by
  have released : Sequenced (.release restoreState :: rest) := sequenced.cons rfl
  rw [List.append_assoc, List.singleton_append]
  cases body with
  | op method =>
      refine released.append ?_
      cases method <;> simp [Section.code, Instr.isMaskAccess]
  | waitCurrentThreadEvent events deadline =>
      have blocks
          : Sequenced (.locked (.blockUnlessReceived events deadline) :: .dropBorrow
              :: .release restoreState :: rest) :=
        (released.cons rfl).cons rfl
      have consumes
          : Sequenced (.locked (.consumeEvents events)
              :: .locked (.blockUnlessReceived events deadline) :: .dropBorrow
              :: .release restoreState :: rest) := by
        refine ⟨by simp, fun other he => ?_, blocks⟩
        cases he
        exact ⟨deadline, _, rfl⟩
      refine Sequenced.cons ⟨fun other he => ?_, by simp, consumes⟩ rfl
      cases he
      exact ⟨deadline, _, rfl⟩
  | closure mayBlock => exact released.cons rfl

theorem sequenced_continues (continues : Continues instr more) (sequenced : Sequenced rest)
    : Sequenced (more ++ rest) := by
  cases continues with
  | acquired body restoreState => exact sequenced_section body sequenced restoreState
  | notified popped =>
      refine sequenced.append ?_
      rcases popped with _ | thread | handler <;> simp [notifyCode, resumeCode, Instr.isMaskAccess]
  | notifiesNext popped =>
      refine sequenced.append ?_
      rcases popped with _ | thread | handler <;> simp [notifyCode, resumeCode, Instr.isMaskAccess]
  | _ =>
      exact sequenced.append
        (by simp [resumeCode, waitEventsCode, interruptExit, Instr.isMaskAccess])

theorem keptByCode_sequenced : Machine.KeptByCode Sequenced where
  perform hp before := sequenced_continues (Instr.perform_continues hp) before.2.2
  call call _ before :=
    (before.2.2.cons rfl).append fun next hm =>
      isMaskAccess_of_neutral (Machine.neutral_call call next hm).1
  finish before := before.2.2
  enter {body} entered exit ends := by
    have none : ∀ next ∈ body ++ exit, next.isMaskAccess = false := by
      refine List.forall_mem_append.mpr ⟨?_, ?_⟩
      · rcases entered with rfl | ⟨call, rfl⟩
        · exact List.forall_mem_singleton.mpr rfl
        · exact fun next hm =>
            isMaskAccess_of_neutral (Machine.isNeutral_syscall call next hm)
      · rcases ends with rfl | rfl <;> simp [interruptExit, Instr.isMaskAccess]
    simpa using (show Sequenced [] from trivial).append none

theorem service_of_willConsume (consumes : instr.willConsume = true) : instr.service ≠ none := by
  unfold Instr.willConsume at consumes
  split at consumes
  · exact nofun
  · exact nofun
  · exact nofun
  · cases consumes

/-- An instruction goes on with parts of a wait that consume only if it is one. -/
theorem Continues.willConsume (continues : Continues instr more) (hm : next ∈ more)
    (consumes : next.willConsume = true)
    : ∃ events deadline, instr = .tryWith (.waitCurrentThreadEvent events deadline) := by
  have serves := service_of_willConsume consumes
  obtain ⟨service, serves⟩ := Option.ne_none_iff_exists'.mp serves
  have he := continues.service next hm service serves
  cases continues with
  | acquired body restoreState =>
      cases body with
      | waitCurrentThreadEvent events deadline => exact ⟨events, deadline, rfl⟩
      | op method =>
          rcases List.mem_append.mp hm with inBody | released
          · cases method <;> simp [Section.code] at inBody <;>
              (first | subst inBody | rcases inBody with rfl | rfl | rfl) <;> cases consumes
          · rw [List.mem_singleton.mp released] at consumes
            cases consumes
      | closure mayBlock => cases he
  | waits waiter =>
      rw [List.mem_singleton.mp hm] at consumes
      cases consumes
  | nothing => cases hm
  | _ => cases he

end Scars
