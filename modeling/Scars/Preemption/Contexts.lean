import Scars.Preemption.LockExclusion

/-! The code that all contexts have left, and what a step does to it.
Invariants about requests that are under way speak of this code; a step rewrites the code of the
executing context and leaves that of all others alone.
-/

namespace Scars.Machine

open Runs

variable {machine machine' : Machine} {fuel : Nat} {program : Program} {memory : Memory}
  {code rest more : List Instr} {instr : Instr} {now : Instant}

/-- Code of a context that does not execute. -/
def OtherCode (machine : Machine) (code : List Instr) : Prop :=
  match machine.frames with
  | [] => ∃ thread, thread ≠ machine.raw.currentThread ∧ machine.code thread = code
  | _ :: below => (∃ frame ∈ below, frame.code = code) ∨ ∃ thread, machine.code thread = code

/-- Code of some context. -/
def HasCode (machine : Machine) (code : List Instr) : Prop :=
  code = machine.running ∨ machine.OtherCode code

theorem hasCode_frame {frame : Frame} (active : frame ∈ machine.frames)
    : machine.HasCode frame.code := by
  unfold HasCode OtherCode running
  cases frames : machine.frames with
  | nil => simp [frames] at active
  | cons top below =>
      rw [frames] at active
      rcases List.mem_cons.mp active with rfl | later
      · exact Or.inl rfl
      · exact Or.inr (Or.inl ⟨frame, later, rfl⟩)

theorem hasCode_thread (machine : Machine) (thread : ThreadId)
    : machine.HasCode (machine.code thread) := by
  unfold HasCode OtherCode running
  cases frames : machine.frames with
  | nil =>
      by_cases current : thread = machine.raw.currentThread
      · exact Or.inl (by rw [current])
      · exact Or.inr ⟨thread, current, rfl⟩
  | cons top below => exact Or.inr (Or.inr ⟨thread, rfl⟩)

theorem hasCode_iff
    : machine.HasCode code
      ↔ (∃ frame ∈ machine.frames, frame.code = code) ∨ ∃ thread, machine.code thread = code := by
  constructor
  · unfold HasCode OtherCode running
    cases frames : machine.frames with
    | nil =>
        rintro (rfl | ⟨thread, -, rfl⟩)
        · exact Or.inr ⟨_, rfl⟩
        · exact Or.inr ⟨thread, rfl⟩
    | cons top below =>
        rintro (rfl | ⟨frame, hm, rfl⟩ | ⟨thread, rfl⟩)
        · exact Or.inl ⟨top, by simp, rfl⟩
        · exact Or.inl ⟨frame, by simp [hm], rfl⟩
        · exact Or.inr ⟨thread, rfl⟩
  · rintro (⟨frame, active, rfl⟩ | ⟨thread, rfl⟩)
    · exact hasCode_frame active
    · exact machine.hasCode_thread thread

/-- Who does not execute was interrupted, or is a thread that is not current. -/
theorem otherCode_cases (other : machine.OtherCode code)
    : (∃ context, (context, code) ∈ machine.interrupted)
      ∨ ∃ thread, thread ≠ machine.raw.currentThread ∧ machine.code thread = code := by
  unfold OtherCode at other
  unfold interrupted stack
  cases frames : machine.frames with
  | nil =>
      rw [frames] at other
      exact Or.inr other
  | cons top below =>
      rw [frames] at other
      rcases other with ⟨frame, hm, rfl⟩ | ⟨thread, rfl⟩
      · refine Or.inl ⟨.interrupt frame.handler, ?_⟩
        simp only [List.map_cons, List.cons_append, List.tail_cons, List.mem_append]
        exact Or.inl (List.mem_map.mpr ⟨frame, hm, rfl⟩)
      · by_cases current : thread = machine.raw.currentThread
        · subst current
          exact Or.inl ⟨.thread machine.raw.currentThread, by simp⟩
        · exact Or.inr ⟨thread, current, rfl⟩

theorem Exclusive.other_balanced (hx : machine.Exclusive)
    (inside : 0 < sectionDepth machine.running) (other : machine.OtherCode code)
    : Balanced 0 false code := by
  have held := hx.held
  rw [stack_eq] at held
  obtain ⟨-, -, outside⟩ := held.holder inside
  rcases otherCode_cases other with ⟨context, hm⟩ | ⟨thread, notCurrent, rfl⟩
  · exact outside (context, code) hm
  · exact hx.others thread notCurrent

theorem Exclusive.depth_of_inside (hx : machine.Exclusive)
    (hrun : machine.running = instr :: rest) (inside : instr.isNeutral = false)
    : 0 < sectionDepth machine.running := by
  have held := hx.held
  rw [stack_eq, hrun] at held
  rw [hrun]
  rcases held with ⟨outside, -⟩ | ⟨-, ⟨depth, balanced⟩, -⟩
  · have neutral := outside.neutral instr (by simp)
    rw [inside] at neutral
    cases neutral
  · rw [balanced.sectionDepth_eq]
    omega

theorem Exclusive.other_of_granted (hx : machine.Exclusive)
    (granted : (tryAcquireNestingLock machine.preemptLock machine.context).isSome = true)
    (other : machine.OtherCode code)
    : Balanced 0 false code := by
  have free : machine.preemptLock = none ∨ machine.preemptLock = some machine.context := by
    cases kind : machine.context.isInterrupt with
    | false => exact hx.lock_of_thread kind
    | true =>
        cases context : machine.context with
        | thread thread => simp [context, ExecutionContext.isInterrupt] at kind
        | interrupt handler =>
            rw [context] at granted
            by_contra refused
            simp [tryAcquireNestingLock, refused] at granted
  have held := hx.held
  rw [stack_eq] at held
  rcases otherCode_cases other with ⟨context, hm⟩ | ⟨thread, notCurrent, rfl⟩
  · rcases free with free | own
    · rw [free] at held
      exact held.free.2 (context, code) (List.mem_cons_of_mem _ hm)
    · rcases held with ⟨-, notOwn, -⟩ | ⟨-, -, outside⟩
      · exact absurd own notOwn
      · exact outside (context, code) hm
  · exact hx.others thread notCurrent

theorem otherCode_setRunning (machine : Machine) (code new : List Instr)
    : (machine.setRunning new).OtherCode code ↔ machine.OtherCode code := by
  unfold setRunning OtherCode
  cases frames : machine.frames with
  | nil =>
      dsimp only
      refine exists_congr fun thread => and_congr_right fun other => ?_
      rw [Function.update_of_ne other]
  | cons top below => rfl

theorem running_enter (machine : Machine) (handler : HandlerId) (body : List Instr)
    : (machine.enter handler body).running
      = body ++ if machine.frames.isEmpty then interruptExit else [] :=
  rfl

theorem otherCode_enter {handler : HandlerId} {body : List Instr}
    : (machine.enter handler body).OtherCode code ↔ machine.HasCode code :=
  hasCode_iff.symm

theorem hasCode_enter {handler : HandlerId} {body : List Instr}
    : (machine.enter handler body).HasCode code
      ↔ code = (body ++ if machine.frames.isEmpty then interruptExit else [])
        ∨ machine.HasCode code :=
  or_congr (by rw [running_enter]) otherCode_enter

theorem otherCode_restore {frame : Frame} {below : List Frame}
    (active : machine.frames = frame :: below)
    : machine.OtherCode code ↔ HasCode { machine with frames := below } code := by
  have all := @hasCode_iff { machine with frames := below } code
  unfold OtherCode
  rw [active]
  exact all.symm

theorem otherCode_memory (he : memory.raw.currentThread = machine.raw.currentThread
      ∨ machine.frames ≠ [])
    : OtherCode { machine with toMemory := memory } code ↔ machine.OtherCode code := by
  unfold OtherCode
  cases frames : machine.frames with
  | nil =>
      have current := he.resolve_right (by simp [frames])
      dsimp only
      rw [current]
  | cons top below => rfl

theorem running_memory (he : memory.raw.currentThread = machine.raw.currentThread
      ∨ machine.frames ≠ [])
    : running { machine with toMemory := memory } = machine.running := by
  unfold running
  cases frames : machine.frames with
  | nil =>
      have current := he.resolve_right (by simp [frames])
      dsimp only
      rw [current]
  | cons top below => rfl

theorem Exclusive.current_or_interrupt (hx : machine.Exclusive)
    (hrun : machine.running = instr :: rest)
    (hp : instr.perform fuel now machine.context machine.toMemory = .ok (memory, more))
    : memory.raw.currentThread = machine.raw.currentThread ∨ machine.frames ≠ [] := by
  rcases perform_currentThread hp with he | ⟨op, rfl, switches⟩
  · exact Or.inl he
  · have ha := hx.running (.locked op) (by simp [hrun])
    obtain ⟨frame, active⟩ := frames_of_lowest (level_of_switches ha switches)
    exact Or.inr (by simp [active])

theorem frames_setRunning_isEmpty (machine : Machine) (code : List Instr)
    : (machine.setRunning code).frames.isEmpty = machine.frames.isEmpty := by
  unfold setRunning
  cases machine.frames with
  | nil => simp
  | cons top below => rfl

theorem toMemory_setRunning (machine : Machine) (code : List Instr)
    : (machine.setRunning code).toMemory = machine.toMemory := by
  unfold setRunning
  cases machine.frames <;> rfl

theorem toMemory_goOn (machine : Machine) (memory : Memory) (code : List Instr)
    (entered : Option (HandlerId × List Instr))
    : (machine.goOn memory code entered).toMemory = memory := by
  unfold goOn
  cases entered <;> rfl

theorem memory_step {event : Event} (hs : machine.step fuel event = .ok machine')
    : machine'.toMemory = machine.toMemory
      ∨ ∃ now instr rest more,
          event = .exec now
          ∧ machine.running = instr :: rest
          ∧ instr.perform fuel now machine.context machine.toMemory
            = .ok (machine'.toMemory, more) := by
  cases step_ok hs with
  | instr hrun hp =>
      exact Or.inr ⟨_, _, _, _, rfl, hrun, by rw [toMemory_goOn]; exact hp⟩
  | restore => exact Or.inl rfl
  | call => exact Or.inl (toMemory_setRunning _ _)
  | finish => exact Or.inl (toMemory_setRunning _ _)
  | fire => exact Or.inl rfl

section

variable (hx : machine.Exclusive) (hrun : machine.running = instr :: rest)
  (hp : instr.perform fuel now machine.context machine.toMemory = .ok (memory, more))

include hx hrun hp

theorem Exclusive.same_or_interrupt
    : memory.raw.currentThread = (machine.setRunning (more ++ rest)).raw.currentThread
      ∨ (machine.setRunning (more ++ rest)).frames ≠ [] := by
  rw [toMemory_setRunning]
  refine (hx.current_or_interrupt hrun hp).imp_right fun active => ?_
  rw [Ne, ← List.isEmpty_iff, frames_setRunning_isEmpty, List.isEmpty_iff]
  exact active

theorem Exclusive.running_goOn (enters : instr.enters = none)
    : (machine.goOn memory (more ++ rest) instr.enters).running = more ++ rest := by
  rw [enters]
  exact (running_memory (hx.same_or_interrupt hrun hp)).trans
    (running_setRunning machine (more ++ rest))

/-- All code after an instruction: what is left of its own, that of the others, and the body
of the interrupt context it entered.
-/
theorem Exclusive.hasCode_goOn
    : (machine.goOn memory (more ++ rest) instr.enters).HasCode code
      ↔ code = more ++ rest ∨ machine.OtherCode code
        ∨ ∃ handler body,
            instr.enters = some (handler, body)
            ∧ code = body ++ if machine.frames.isEmpty then interruptExit else [] := by
  have he := hx.same_or_interrupt hrun hp
  have kept
      : HasCode { machine.setRunning (more ++ rest) with toMemory := memory } code
        ↔ code = more ++ rest ∨ machine.OtherCode code :=
    or_congr (by rw [running_memory he, running_setRunning])
      ((otherCode_memory he).trans (otherCode_setRunning machine code (more ++ rest)))
  cases enters : instr.enters with
  | none => simpa [Machine.goOn] using kept
  | some entered =>
      obtain ⟨handler, body⟩ := entered
      have empty := frames_setRunning_isEmpty machine (more ++ rest)
      have all
          : (∃ other left,
              some (handler, body) = some (other, left)
              ∧ code = left ++ if machine.frames.isEmpty then interruptExit else [])
            ↔ code = body ++ if machine.frames.isEmpty then interruptExit else [] := by
        simp
      refine hasCode_enter.trans ?_
      rw [kept, empty, all]
      tauto

end

/-- A property of all code is kept by a step if the instructions, the calls and the bodies of
interrupt contexts keep it.
-/
structure KeptByCode (property : List Instr → Prop) : Prop where
  perform {instr : Instr} {rest more : List Instr} {memory memory' : Memory} {fuel : Nat}
    {now : Instant} {context : ExecutionContext}
    : instr.perform fuel now context memory = .ok (memory', more)
      → property (instr :: rest) → property (more ++ rest)
  call (call : Call) {rest : List Instr}
    : property (.user :: rest) → property (call.code ++ .user :: rest)
  finish {rest : List Instr} : property (.user :: rest) → property rest
  enter {body : List Instr}
    (entered : body = [.user] ∨ ∃ call : Syscall, body = call.code) (exit : List Instr)
    (ends : exit = interruptExit ∨ exit = [])
    : property (body ++ exit)

theorem body_of_enters {handler : HandlerId} {body : List Instr}
    (enters : instr.enters = some (handler, body))
    : body = [.user] ∨ ∃ call : Syscall, body = call.code := by
  cases instr with
  | yieldPending => cases enters; exact Or.inr ⟨.yield, rfl⟩
  | syscall call => cases enters; exact Or.inr ⟨call, rfl⟩
  | pollExecutor handler => cases enters; exact Or.inl rfl
  | _ => cases enters

theorem exit_cases (empty : Bool)
    : (if empty then interruptExit else []) = interruptExit
      ∨ (if empty then interruptExit else []) = [] := by
  cases empty
  · exact Or.inr rfl
  · exact Or.inl rfl

theorem KeptByCode.step {property : List Instr → Prop} (kept : KeptByCode property)
    (hx : machine.Exclusive) (holds : ∀ code, machine.HasCode code → property code)
    {event : Event} (hs : machine.step fuel event = .ok machine')
    : ∀ code, machine'.HasCode code → property code := by
  intro code hasCode
  cases step_ok hs with
  | @instr now instr rest more memory hrun hp =>
      have before : property (instr :: rest) := holds _ (Or.inl hrun.symm)
      rcases (hx.hasCode_goOn hrun hp).mp hasCode with
        rfl | other | ⟨handler, body, enters, rfl⟩
      · exact kept.perform hp before
      · exact holds code (Or.inr other)
      · exact kept.enter (body_of_enters enters) _ (exit_cases _)
  | restore active ended => exact holds code (Or.inr ((otherCode_restore active).mpr hasCode))
  | @call call rest hrun ha =>
      rcases hasCode with rfl | other
      · rw [running_setRunning]
        exact kept.call call (holds _ (Or.inl hrun.symm))
      · exact holds code (Or.inr ((otherCode_setRunning machine code _).mp other))
  | @finish rest hrun ha =>
      rcases hasCode with rfl | other
      · rw [running_setRunning]
        exact kept.finish (holds _ (Or.inl hrun.symm))
      · exact holds code (Or.inr ((otherCode_setRunning machine code _).mp other))
  | fire ha =>
      rcases hasCode_enter.mp hasCode with rfl | before
      · exact kept.enter (Or.inl rfl) _ (exit_cases _)
      · exact holds code before

end Scars.Machine
