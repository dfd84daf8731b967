import Scars.Preemption.Levels

/-! In every run, the preemption lock belongs to the one context that is inside a section. -/

namespace Scars.Machine

open Runs

variable {machine machine' : Machine} {fuel : Nat} {memory : Memory} {code : List Instr}
  {frame : Frame} {below : List Frame}

/-- The executing context and those it interrupted, with the current thread at the bottom. -/
def stack (machine : Machine) : CodeStack :=
  machine.frames.map (fun frame => (.interrupt frame.handler, frame.code))
    ++ [(.thread machine.raw.currentThread, machine.code machine.raw.currentThread)]

/-- What the executing context interrupted. -/
def interrupted (machine : Machine) : CodeStack := machine.stack.tail

theorem stack_eq (machine : Machine)
    : machine.stack = (machine.context, machine.running) :: machine.interrupted := by
  unfold interrupted stack context running
  cases machine.frames <;> rfl

/-- The level of the executing context. -/
def level (machine : Machine) : Level :=
  match machine.frames with
  | [] => .thread
  | [_] => .lowest
  | _ => .nested

theorem context_isInterrupt (machine : Machine)
    : machine.context.isInterrupt = machine.level.isInterrupt := by
  unfold context level
  rcases machine.frames with - | ⟨frame, - | ⟨next, below⟩⟩ <;> rfl

/-- The code of all interrupt contexts is of their level. -/
def FramesAt : List Frame → Prop
  | [] => True
  | frame :: below =>
      (∀ instr ∈ frame.code, instr.isAt (if below.isEmpty then .lowest else .nested) = true)
      ∧ FramesAt below

/-- The lock and the borrow are those of the one context inside a section, and all code is of
its level.
-/
structure Exclusive (machine : Machine) : Prop where
  held : Owned machine.preemptLock machine.borrowed machine.stack
  others : ∀ thread, thread ≠ machine.raw.currentThread → Balanced 0 false (machine.code thread)
  threads : ∀ thread, ∀ instr ∈ machine.code thread, instr.isAt .thread = true
  frames : FramesAt machine.frames

theorem start_exclusive (program : Program) : (Machine.start program).Exclusive where
  held := Or.inl ⟨⟨nofun, rfl, rfl, rfl⟩, by simp [start, Memory.start], rfl, rfl⟩
  others _ _ := ⟨nofun, rfl, rfl, rfl⟩
  threads _ := List.forall_mem_singleton.mpr rfl
  frames := trivial

theorem Exclusive.running (hx : machine.Exclusive)
    : ∀ instr ∈ machine.running, instr.isAt machine.level = true := by
  have frames := hx.frames
  unfold Machine.running level
  rcases active : machine.frames with - | ⟨frame, - | ⟨next, below⟩⟩
  · exact hx.threads _
  · rw [active] at frames
    exact frames.1
  · rw [active] at frames
    exact frames.1

theorem FramesAt.replace (frames : FramesAt (frame :: below))
    (ha
      : ∀ instr ∈ code, instr.isAt (if below.isEmpty then .lowest else .nested) = true)
    : FramesAt ({ frame with code := code } :: below) :=
  ⟨ha, frames.2⟩

theorem Exclusive.setRunning (hx : machine.Exclusive)
    (he : memory.raw.currentThread = machine.raw.currentThread)
    (held
      : Owned memory.preemptLock memory.borrowed ((machine.context, code) :: machine.interrupted))
    (ha : ∀ instr ∈ code, instr.isAt machine.level = true)
    : Exclusive { machine.setRunning code with toMemory := memory } := by
  have frames := hx.frames
  unfold interrupted stack context at held
  unfold level at ha
  unfold Machine.setRunning
  rcases active : machine.frames with - | ⟨frame, below⟩
  · rw [active] at held ha
    refine ⟨?_, fun thread other => ?_, fun thread => ?_, ?_⟩
    · simpa [stack, active, he] using held
    · dsimp only at other ⊢
      rw [he] at other
      rw [Function.update_of_ne other]
      exact hx.others thread other
    · dsimp only
      by_cases current : thread = machine.raw.currentThread
      · rw [current, Function.update_self]
        exact ha
      · rw [Function.update_of_ne current]
        exact hx.threads thread
    · rw [active] at frames
      simpa [active] using frames
  · rw [active] at held frames
    refine ⟨?_, fun thread other => ?_, hx.threads, ?_⟩
    · simpa [stack, he] using held
    · exact hx.others thread (by rwa [← he])
    · refine frames.replace ?_
      rw [active] at ha
      cases below <;> exact ha

theorem Exclusive.switch (hx : machine.Exclusive) {depth : Nat}
    (active : machine.frames = [frame]) (inside : 0 < sectionDepth machine.running)
    (lock : memory.preemptLock = machine.preemptLock)
    (balanced : Balanced (depth + 1) memory.borrowed code)
    (ha : ∀ instr ∈ code, instr.isAt machine.level = true)
    : Exclusive { machine.setRunning code with toMemory := memory } := by
  have held := hx.held
  rw [stack_eq] at held
  obtain ⟨owned, -, outside⟩ := held.holder inside
  have threads (thread : ThreadId) : Balanced 0 false (machine.code thread) := by
    by_cases current : thread = machine.raw.currentThread
    · refine outside (.thread thread, machine.code thread) ?_
      simp [interrupted, stack, active, current]
    · exact hx.others thread current
  unfold Machine.setRunning
  rw [active]
  refine ⟨Or.inr ⟨?_, ⟨depth, balanced⟩, ?_⟩, fun thread _ => threads thread,
    hx.threads, ?_, trivial⟩
  · rw [lock, owned]
    simp [context, active]
  · exact List.forall_mem_singleton.mpr (threads _)
  · simpa [level, active] using ha

theorem lock_ne_interrupt {lock : Option ExecutionContext} {borrowed : Bool} {thread : ThreadId}
    {handler : HandlerId} (held : Owned lock borrowed [(.thread thread, code)])
    : lock ≠ some (.interrupt handler) := by
  rcases held with ⟨-, -, rfl, -⟩ | ⟨rfl, -⟩
  · simp
  · simp

theorem Exclusive.enter (hx : machine.Exclusive) {handler : HandlerId} {body : List Instr}
    (other : machine.preemptLock ≠ some (.interrupt handler))
    (neutral : ∀ instr ∈ body, instr.isNeutral = true)
    (ha
      : ∀ instr ∈ body,
          instr.isAt (if machine.frames.isEmpty then .lowest else .nested) = true)
    : (machine.enter handler body).Exclusive := by
  unfold Machine.enter
  refine ⟨?_, hx.others, hx.threads, ?_, hx.frames⟩
  · refine hx.held.push ?_ other
    have exits : Balanced 0 false (if machine.frames.isEmpty then interruptExit else []) := by
      split
      · exact ⟨fun _ => rfl, rfl, fun _ => rfl, rfl, fun _ => rfl, rfl, rfl, rfl⟩
      · exact ⟨rfl, rfl⟩
    exact exits.append fun instr hm => ⟨neutral instr hm, fun _ => rfl⟩
  · dsimp only
    rw [List.forall_mem_append]
    refine ⟨ha, ?_⟩
    split
    · simp only [interruptExit, List.forall_mem_cons]
      exact ⟨rfl, rfl, rfl, List.forall_mem_nil _⟩
    · simp

theorem Exclusive.restore (hx : machine.Exclusive) (active : machine.frames = frame :: below)
    (ended : frame.code = [])
    : Exclusive { machine with frames := below } := by
  have held := hx.held
  have frames := hx.frames
  unfold stack at held
  rw [active] at held frames
  rw [List.map_cons, List.cons_append, ended] at held
  exact ⟨held.pop, hx.others, hx.threads, frames.2⟩

theorem interrupted_of_thread (thread : machine.context.isInterrupt = false)
    : machine.interrupted = [] := by
  unfold context at thread
  unfold interrupted stack
  cases active : machine.frames with
  | nil => rfl
  | cons frame below => simp [active, ExecutionContext.isInterrupt] at thread

theorem frames_of_lowest (lowest : machine.level = .lowest)
    : ∃ frame, machine.frames = [frame] := by
  unfold level at lowest
  rcases active : machine.frames with - | ⟨frame, - | ⟨next, below⟩⟩
  · simp [active] at lowest
  · exact ⟨frame, rfl⟩
  · simp [active] at lowest

theorem frames_of_thread (thread : machine.level = .thread) : machine.frames = [] := by
  unfold level at thread
  rcases active : machine.frames with - | ⟨frame, - | ⟨next, below⟩⟩
  · rfl
  · simp [active] at thread
  · simp [active] at thread

section

variable {instr : Instr} {rest more : List Instr} {now : Instant}

/-- The instruction and what it goes on with, before an interrupt context is entered. -/
theorem Exclusive.perform (hx : machine.Exclusive) (hrun : machine.running = instr :: rest)
    (hp : instr.perform fuel now machine.context machine.toMemory = .ok (memory, more))
    : Exclusive { machine.setRunning (more ++ rest) with toMemory := memory } := by
  have held := hx.held
  rw [stack_eq, hrun] at held
  have after := held.perform interrupted_of_thread hp
  have levels := hx.running
  rw [hrun, List.forall_mem_cons] at levels
  have ha : ∀ next ∈ more ++ rest, next.isAt machine.level = true := by
    rw [List.forall_mem_append]
    exact ⟨isAt_more levels.1 machine.context_isInterrupt hp, levels.2⟩
  rcases perform_currentThread hp with he | ⟨op, rfl, switches⟩
  · exact hx.setRunning he after ha
  · obtain ⟨frame, active⟩ := frames_of_lowest (level_of_switches levels.1 switches)
    have inside : 0 < sectionDepth (.locked op :: rest) := by
      rcases held with ⟨⟨inside, -⟩, -⟩ | ⟨-, ⟨depth, balanced⟩, -⟩
      · cases inside
      · rw [balanced.sectionDepth_eq]
        omega
    have lock := (op.perform_ok hp).1.preemptLock
    rw [lock, (held.holder inside).1] at after
    obtain ⟨-, ⟨depth, balanced⟩, -⟩ := after.resolve_left fun outside => outside.2.1 rfl
    rw [← hrun] at inside
    exact hx.switch active inside lock balanced ha

theorem isNeutral_syscall (call : Syscall) : ∀ instr ∈ call.code, instr.isNeutral = true := by
  cases call <;> exact List.forall_mem_singleton.mpr rfl

theorem isAt_syscall (call : Syscall) : ∀ instr ∈ call.code, instr.isAt .lowest = true := by
  cases call <;> exact List.forall_mem_singleton.mpr rfl

section

variable (hx : machine.Exclusive)
include hx

theorem Exclusive.syscall (none : machine.frames = []) (call : Syscall)
    : (machine.enter SYSCALL_INTERRUPT_HANDLER call.code).Exclusive := by
  have held := hx.held
  unfold stack at held
  rw [none] at held
  refine hx.enter (lock_ne_interrupt held) (isNeutral_syscall call) ?_
  rw [none]
  exact isAt_syscall call

/-- The executor of a handler is polled by the lowest interrupt context, outside of sections. -/
theorem Exclusive.poll {handler : HandlerId} (active : machine.frames = [frame])
    (outside : sectionDepth frame.code = 0)
    : (machine.enter handler [.user]).Exclusive := by
  have held := hx.held
  unfold stack at held
  rw [active] at held
  have below : Owned machine.preemptLock machine.borrowed
      [(.thread machine.raw.currentThread, machine.code machine.raw.currentThread)] := by
    rcases held with ⟨-, -, below⟩ | ⟨-, ⟨depth, balanced⟩, -⟩
    · exact below
    · have inside := balanced.sectionDepth_eq
      omega
  refine hx.enter (lock_ne_interrupt below) (List.forall_mem_singleton.mpr rfl) ?_
  rw [active]
  exact List.forall_mem_singleton.mpr rfl

theorem Exclusive.goOn (hrun : machine.running = instr :: rest)
    (hp : instr.perform fuel now machine.context machine.toMemory = .ok (memory, more))
    : (machine.goOn memory (more ++ rest) instr.enters).Exclusive := by
  have after := hx.perform hrun hp
  have ha := hx.running instr (by simp [hrun])
  cases instr with
  | yieldPending =>
      have none := frames_of_thread (level_of_isThreads ha rfl)
      refine after.syscall ?_ .yield
      simp [Machine.setRunning, none]
  | syscall call =>
      have none := frames_of_thread (level_of_isThreads ha rfl)
      refine after.syscall ?_ call
      simp [Machine.setRunning, none]
  | pollExecutor handler =>
      obtain ⟨frame, active⟩ := frames_of_lowest (level_of_isExit ha rfl)
      have frames : (machine.setRunning (more ++ rest)).frames
          = [{ frame with code := more ++ rest }] := by
        simp [Machine.setRunning, active]
      refine after.poll frames ?_
      obtain ⟨-, rfl⟩ := Memory.setRaw_ok hp
      have held := hx.held
      rw [stack_eq, hrun] at held
      have balanced : Balanced 0 false rest := by
        rcases held with ⟨balanced, -⟩ | ⟨-, ⟨depth, exits, -⟩, -⟩
        · exact balanced.2.2
        · cases exits rfl
      exact (sectionDepth_cons).trans balanced.sectionDepth_eq
  | _ => exact after

theorem Exclusive.user (hrun : machine.running = .user :: rest)
    (neutral : ∀ next ∈ more, next.isNeutral = true ∧ next.isExit = false)
    (ha : ∀ next ∈ more, next.isAt machine.level = true)
    : (machine.setRunning (more ++ rest)).Exclusive := by
  have held := hx.held
  have levels := hx.running
  rw [stack_eq, hrun] at held
  rw [hrun, List.forall_mem_cons] at levels
  have after : Owned machine.preemptLock machine.borrowed
      ((machine.context, more ++ rest) :: machine.interrupted) := by
    refine held.neutral rfl fun next hm => ?_
    obtain ⟨isNeutral, stays⟩ := neutral next hm
    exact ⟨isNeutral, fun exit => absurd exit (ne_true_of_eq_false stays)⟩
  have levels : ∀ next ∈ more ++ rest, next.isAt machine.level = true := by
    rw [List.forall_mem_append]
    exact ⟨ha, levels.2⟩
  have he : machine.setRunning (more ++ rest)
      = { machine.setRunning (more ++ rest) with toMemory := machine.toMemory } := by
    unfold Machine.setRunning
    cases machine.frames <;> rfl
  rw [he]
  exact hx.setRunning rfl after levels

end

end

theorem neutral_call (call : Call)
    : ∀ next ∈ call.code, next.isNeutral = true ∧ next.isExit = false := by
  have neutral : call.code.all (fun next => next.isNeutral && !next.isExit) = true := by
    cases call <;> rfl
  simpa using neutral

theorem isAt_call {call : Call} (ha : machine.mayCall call = true)
    : ∀ next ∈ call.code, next.isAt machine.level = true := by
  refine List.all_eq_true.mp ?_
  revert ha
  unfold mayCall level
  rcases machine.frames with - | ⟨frame, - | ⟨next, below⟩⟩ <;>
    cases call <;> first | exact fun _ => rfl | nofun

theorem Exclusive.fire (hx : machine.Exclusive) {handler : HandlerId}
    (ha : machine.mayFire handler = true)
    : (machine.enter handler [.user]).Exclusive := by
  refine hx.enter ?_ (List.forall_mem_singleton.mpr rfl) ?_
  · intro owned
    have held := hx.held
    rw [owned] at held
    obtain ⟨code, depth, hm, -⟩ := held.mem
    unfold stack at hm
    unfold mayFire at ha
    simp only [Bool.and_eq_true, List.all_eq_true, bne_iff_ne, ne_eq] at ha
    simp only [List.mem_append, List.mem_map, Prod.mk.injEq, ExecutionContext.interrupt.injEq,
      List.mem_singleton, reduceCtorEq, false_and, or_false] at hm
    obtain ⟨frame, active, he, -⟩ := hm
    exact ha.1.2 frame active he
  · cases machine.frames <;> exact List.forall_mem_singleton.mpr rfl

/-- Every step keeps one context at most inside a section. -/
theorem Exclusive.step (hx : machine.Exclusive) {event : Event}
    (hs : machine.step fuel event = .ok machine')
    : machine'.Exclusive := by
  cases step_ok hs with
  | instr hrun hp => exact hx.goOn hrun hp
  | restore active ended => exact hx.restore active ended
  | @call call rest hrun ha =>
      have user : Instr.user.isAt machine.level = true :=
        hx.running .user (by simp [hrun])
      have goesOn : call.code ++ .user :: rest = call.code ++ [.user] ++ rest := by simp
      rw [goesOn]
      refine hx.user hrun ?_ ?_
      · exact List.forall_mem_append.mpr
          ⟨neutral_call call, List.forall_mem_singleton.mpr ⟨rfl, rfl⟩⟩
      · exact List.forall_mem_append.mpr
          ⟨isAt_call ha, List.forall_mem_singleton.mpr user⟩
  | finish hrun ha => 
      have after : (machine.setRunning ([] ++ _)).Exclusive :=
        hx.user hrun (by simp) (by simp)
      exact after
  | fire ha => exact hx.fire ha

end Scars.Machine
