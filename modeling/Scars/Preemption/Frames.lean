import Scars.Preemption.Contexts
import Scars.Preemption.Continuations

/-! The code of single threads and interrupt contexts after a step.
A step changes the code of the executing context, and may add an interrupt context on top.
-/

namespace Scars.Machine

open Runs

variable {machine machine' : Machine} {memory : Memory} {fuel : Nat} {now : Instant}
  {more rest code : List Instr} {instr next : Instr} {thread : ThreadId} {event : Event}
  {frame : Frame} {below : List Frame}

theorem running_of_frame (active : machine.frames = frame :: below)
    : machine.running = frame.code := by
  unfold running
  rw [active]

theorem running_of_thread (idle : machine.frames = [])
    : machine.running = machine.code machine.raw.currentThread := by
  unfold running
  rw [idle]

theorem code_setRunning_of_frame (active : machine.frames = frame :: below) (code : List Instr)
    : (machine.setRunning code).code = machine.code := by
  unfold setRunning
  rw [active]

theorem code_setRunning_of_thread (idle : machine.frames = []) (code : List Instr)
    : (machine.setRunning code).code
      = Function.update machine.code machine.raw.currentThread code := by
  unfold setRunning
  rw [idle]

theorem code_goOn (entered : Option (HandlerId × List Instr))
    : (machine.goOn memory code entered).code = (machine.setRunning code).code := by
  unfold goOn
  cases entered <;> rfl

theorem frames_setRunning_eq (code : List Instr)
    : (machine.setRunning code).frames
      = machine.frames.modifyHead fun frame => { frame with code := code } := by
  unfold setRunning
  cases frames : machine.frames with
  | nil => simp
  | cons top below => rfl

/-- The interrupt contexts after an instruction: the one that it entered, the one that it is
from, and those below.
-/
theorem mem_frames_goOn {entered : Option (HandlerId × List Instr)}
    (hm : frame ∈ (machine.goOn memory code entered).frames)
    : (∃ handler body,
        entered = some (handler, body)
        ∧ frame.code = body ++ if machine.frames.isEmpty then interruptExit else [])
      ∨ machine.frames ≠ [] ∧ frame.code = code
      ∨ frame ∈ machine.frames.tail := by
  have kept {frame : Frame} (hm : frame ∈ (machine.setRunning code).frames)
      : machine.frames ≠ [] ∧ frame.code = code ∨ frame ∈ machine.frames.tail := by
    rw [frames_setRunning_eq] at hm
    cases frames : machine.frames with
    | nil => simp [frames] at hm
    | cons top below =>
        rw [frames] at hm
        rcases List.mem_cons.mp hm with rfl | later
        · exact Or.inl ⟨by simp, rfl⟩
        · exact Or.inr later
  unfold goOn at hm
  cases entered with
  | none => exact Or.inr (kept hm)
  | some entered =>
      rcases List.mem_cons.mp hm with rfl | later
      · refine Or.inl ⟨entered.1, entered.2, rfl, ?_⟩
        rw [← frames_setRunning_isEmpty machine code]
      · exact Or.inr (kept later)

theorem code_of_notCurrent (hs : machine.step fuel event = .ok machine')
    (other : thread ≠ machine.raw.currentThread)
    : machine'.code thread = machine.code thread := by
  have kept {code : List Instr} : (machine.setRunning code).code thread = machine.code thread := by
    cases frames : machine.frames with
    | nil => rw [code_setRunning_of_thread frames, Function.update_of_ne other]
    | cons top below => rw [code_setRunning_of_frame frames]
  cases step_ok hs with
  | instr => rw [code_goOn]; exact kept
  | restore => rfl
  | call => exact kept
  | finish => exact kept
  | fire => rfl

/-- Only the code of the thread that is current, before and after the step, changes. -/
theorem code_step (hx : machine.Exclusive) (hs : machine.step fuel event = .ok machine')
    (other : thread ≠ machine'.raw.currentThread)
    : machine'.code thread = machine.code thread := by
  cases step_ok hs with
  | @instr now instr rest more memory hrun hp =>
      rw [toMemory_goOn] at other
      rcases hx.current_or_interrupt hrun hp with he | active
      · exact code_of_notCurrent hs (he ▸ other)
      · obtain ⟨top, below, frames⟩ := List.exists_cons_of_ne_nil active
        rw [code_goOn, code_setRunning_of_frame frames]
  | restore => rfl
  | call =>
      rw [toMemory_setRunning] at other
      exact code_of_notCurrent hs other
  | finish =>
      rw [toMemory_setRunning] at other
      exact code_of_notCurrent hs other
  | fire => rfl

theorem inInterrupt_of_active {call : Call} (active : machine.frames ≠ [])
    (ha : machine.mayCall call = true)
    : call.inInterrupt = true := by
  simpa [mayCall, active] using ha

/-- The instructions that a step adds to the interrupt contexts. -/
inductive Added (fuel : Nat) (machine : Machine) : Event → Instr → Prop
  | performed {now : Instant} {instr next : Instr} {rest more : List Instr} {memory : Memory}
    (active : machine.frames ≠ []) (running : machine.running = instr :: rest)
    (performed : instr.perform fuel now machine.context machine.toMemory = .ok (memory, more))
    (member : next ∈ more)
    : Added fuel machine (.exec now) next
  | entered {now : Instant} {instr next : Instr} {rest : List Instr} {handler : HandlerId}
    {body : List Instr} (running : machine.running = instr :: rest)
    (enters : instr.enters = some (handler, body)) (member : next ∈ body)
    : Added fuel machine (.exec now) next
  | called {call : Call} {next : Instr} {rest : List Instr} (active : machine.frames ≠ [])
    (running : machine.running = .user :: rest) (allowed : machine.mayCall call = true)
    (member : next ∈ call.code)
    : Added fuel machine (.call call) next
  | ends {event : Event} {next : Instr} (member : next ∈ interruptExit)
    : Added fuel machine event next
  | user {event : Event} : Added fuel machine event .user

theorem added_exit {empty : Bool} (hm : next ∈ if empty then interruptExit else [])
    : Added fuel machine event next := by
  cases empty with
  | false => cases hm
  | true => exact .ends hm

/-- Whatever interrupt contexts have left after a step, they had before or the step added. -/
theorem mem_frames_step (hs : machine.step fuel event = .ok machine')
    (active : frame ∈ machine'.frames) (hm : next ∈ frame.code)
    : (∃ frame ∈ machine.frames, next ∈ frame.code) ∨ Added fuel machine event next := by
  have rewritten {instr : Instr} {more rest : List Instr}
      (hrun : machine.running = instr :: rest)
      (active : frame ∈ (machine.setRunning (more ++ rest)).frames)
      : (∃ frame ∈ machine.frames, next ∈ frame.code) ∨ machine.frames ≠ [] ∧ next ∈ more := by
    rw [frames_setRunning_eq] at active
    cases frames : machine.frames with
    | nil => simp [frames] at active
    | cons top below =>
        rw [frames] at active
        rw [running_of_frame frames] at hrun
        rcases List.mem_cons.mp active with rfl | lower
        · rcases List.mem_append.mp hm with new | old
          · exact Or.inr ⟨by simp, new⟩
          · exact Or.inl ⟨top, by simp, by simp [hrun, old]⟩
        · exact Or.inl ⟨frame, by simp [lower], hm⟩
  cases step_ok hs with
  | @instr now instr rest more memory hrun hp =>
      rcases mem_frames_goOn active with ⟨handler, body, enters, left⟩ | ⟨nested, left⟩ | lower
      · rw [left] at hm
        rcases List.mem_append.mp hm with inBody | inExit
        · exact Or.inr (.entered hrun enters inBody)
        · exact Or.inr (added_exit inExit)
      · rw [left] at hm
        rcases List.mem_append.mp hm with new | old
        · exact Or.inr (.performed nested hrun hp new)
        · obtain ⟨top, below, frames⟩ := List.exists_cons_of_ne_nil nested
          rw [running_of_frame frames] at hrun
          exact Or.inl ⟨top, by simp [frames], by simp [hrun, old]⟩
      · exact Or.inl ⟨frame, List.mem_of_mem_tail lower, hm⟩
  | restore top ended => exact Or.inl ⟨frame, by simp [top, active], hm⟩
  | @call call rest hrun ha =>
      have he : call.code ++ .user :: rest = call.code ++ [.user] ++ rest := by simp
      rw [he] at active
      rcases rewritten hrun active with old | ⟨nested, new⟩
      · exact Or.inl old
      · rcases List.mem_append.mp new with inCall | isUser
        · exact Or.inr (.called nested hrun ha inCall)
        · rw [List.mem_singleton.mp isUser]
          exact Or.inr .user
  | @finish rest hrun ha =>
      rcases rewritten (show machine.running = .user :: rest from hrun)
          (show frame ∈ (machine.setRunning ([] ++ rest)).frames from active) with old | ⟨-, new⟩
      · exact Or.inl old
      · cases new
  | fire ha =>
      rcases List.mem_cons.mp active with rfl | old
      · rcases List.mem_append.mp hm with isUser | inExit
        · rw [List.mem_singleton.mp isUser]
          exact Or.inr .user
        · exact Or.inr (added_exit inExit)
      · exact Or.inl ⟨frame, old, hm⟩

/-- The instructions that a step may add to the code of any context. -/
inductive Adds : Event → Instr → Prop
  | continues {event : Event} {instr next : Instr} {more : List Instr}
    (continues : Continues instr more) (member : next ∈ more)
    : Adds event next
  | called {call : Call} {next : Instr} (member : next ∈ call.code) : Adds (.call call) next
  | entered {event : Event} {next : Instr} {body : List Instr}
    (enters : body = [.user] ∨ ∃ call : Syscall, body = call.code) (member : next ∈ body)
    : Adds event next
  | ends {event : Event} {next : Instr} (member : next ∈ interruptExit) : Adds event next

theorem adds_exit {empty : Bool} (hm : next ∈ if empty then interruptExit else [])
    : Adds event next := by
  cases empty with
  | false => cases hm
  | true => exact .ends hm

/-- Whatever a context has left after a step, some context had before or the step added. -/
theorem mem_hasCode_step (hx : machine.Exclusive)
    (hs : machine.step fuel event = .ok machine') (hasCode : machine'.HasCode code)
    (hm : next ∈ code)
    : (∃ code, machine.HasCode code ∧ next ∈ code) ∨ Adds event next := by
  cases step_ok hs with
  | @instr now instr rest more memory hrun hp =>
      rcases (hx.hasCode_goOn hrun hp).mp hasCode with
        rfl | other | ⟨handler, body, enters, rfl⟩
      · rcases List.mem_append.mp hm with new | old
        · exact Or.inr (.continues (Instr.perform_continues hp) new)
        · exact Or.inl ⟨_, Or.inl rfl, by simp [hrun, old]⟩
      · exact Or.inl ⟨code, Or.inr other, hm⟩
      · rcases List.mem_append.mp hm with inBody | inExit
        · exact Or.inr (.entered (body_of_enters enters) inBody)
        · exact Or.inr (adds_exit inExit)
  | restore active ended =>
      exact Or.inl ⟨code, Or.inr ((otherCode_restore active).mpr hasCode), hm⟩
  | @call call rest hrun ha =>
      rcases hasCode with rfl | other
      · rw [running_setRunning] at hm
        rcases List.mem_append.mp hm with inCall | old
        · exact Or.inr (.called inCall)
        · exact Or.inl ⟨_, Or.inl rfl, by rwa [hrun]⟩
      · exact Or.inl ⟨code, Or.inr ((otherCode_setRunning machine code _).mp other), hm⟩
  | @finish rest hrun ha =>
      rcases hasCode with rfl | other
      · rw [running_setRunning] at hm
        exact Or.inl ⟨_, Or.inl rfl, by simp [hrun, hm]⟩
      · exact Or.inl ⟨code, Or.inr ((otherCode_setRunning machine code _).mp other), hm⟩
  | fire ha =>
      rcases hasCode_enter.mp hasCode with rfl | before
      · rcases List.mem_append.mp hm with isUser | inExit
        · exact Or.inr (.entered (Or.inl rfl) isUser)
        · exact Or.inr (adds_exit inExit)
      · exact Or.inl ⟨code, before, hm⟩

/-- An instruction of kernel code that some context has left is still left after a step, unless
the step performed it.
-/
theorem hasCode_stays (hx : machine.Exclusive)
    (hs : machine.step fuel event = .ok machine') (hasCode : machine.HasCode code)
    (hm : next ∈ code) (inKernel : next ≠ .user)
    : (∃ code, machine'.HasCode code ∧ next ∈ code)
      ∨ ∃ now rest more,
          event = .exec now
          ∧ machine.running = next :: rest
          ∧ next.perform fuel now machine.context machine.toMemory = .ok (machine'.toMemory, more)
          ∧ machine'.HasCode (more ++ rest) := by
  cases step_ok hs with
  | @instr now instr rest more memory hrun hp =>
      have all {code : List Instr}
          : (machine.goOn memory (more ++ rest) instr.enters).HasCode code ↔ _ :=
        hx.hasCode_goOn hrun hp
      rcases hasCode with rfl | other
      · rw [hrun] at hm
        rcases List.mem_cons.mp hm with rfl | later
        · refine Or.inr ⟨now, rest, more, rfl, hrun, ?_, all.mpr (Or.inl rfl)⟩
          rw [toMemory_goOn]
          exact hp
        · exact Or.inl ⟨_, all.mpr (Or.inl rfl), List.mem_append_right _ later⟩
      · exact Or.inl ⟨code, all.mpr (Or.inr (Or.inl other)), hm⟩
  | @restore _ frame below active ended =>
      rcases hasCode with rfl | other
      · simp [running_of_frame active, ended] at hm
      · exact Or.inl ⟨code, (otherCode_restore active).mp other, hm⟩
  | @call call rest hrun ha =>
      rcases hasCode with rfl | other
      · refine Or.inl ⟨_, Or.inl (running_setRunning machine _).symm, ?_⟩
        rw [hrun] at hm
        exact List.mem_append_right _ hm
      · exact Or.inl ⟨code, Or.inr ((otherCode_setRunning machine code _).mpr other), hm⟩
  | @finish rest hrun ha =>
      rcases hasCode with rfl | other
      · refine Or.inl ⟨_, Or.inl (running_setRunning machine _).symm, ?_⟩
        rw [hrun] at hm
        exact (List.mem_cons.mp hm).resolve_left inKernel
      · exact Or.inl ⟨code, Or.inr ((otherCode_setRunning machine code _).mpr other), hm⟩
  | fire ha => exact Or.inl ⟨code, hasCode_enter.mpr (Or.inr hasCode), hm⟩

/-- After a run in which only the listed threads were current, all instructions outside of
interrupts are theirs or user code.
-/
theorem instr_of_listed (property : Instr → Prop) {check : Machine → Event → Bool}
    {program : Program}
    (reached
      : Reaches (Machine.step fuel) (fun machine event => check machine event = true)
          (Machine.start program) machine)
    {threads : List ThreadId}
    (current
      : ∀ machine event, check machine event = true → machine.raw.currentThread ∈ threads)
    (idle : machine.frames = []) (user : property .user)
    (theirs : ∀ thread ∈ threads, ∀ instr ∈ machine.code thread, property instr)
    : ∀ code, machine.HasCode code → ∀ instr ∈ code, property instr := by
  intro code hasCode instr hm
  have others : ∀ thread, thread ∉ threads → machine.code thread = [.user] := by
    refine reached.invariant
      (fun machine => ∀ thread, thread ∉ threads → machine.code thread = [.user])
      (fun _ _ => rfl) fun before event after holds checked ran thread absent => ?_
    have notCurrent : thread ≠ before.raw.currentThread := by
      rintro rfl
      exact absent (current before event checked)
    rw [code_of_notCurrent ran notCurrent]
    exact holds thread absent
  rcases hasCode_iff.mp hasCode with ⟨frame, framed, -⟩ | ⟨thread, rfl⟩
  · simp [idle] at framed
  · by_cases listed : thread ∈ threads
    · exact theirs thread listed instr hm
    · rw [others thread listed, List.mem_singleton] at hm
      exact hm ▸ user

end Scars.Machine
