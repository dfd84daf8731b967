import Scars.Preemption.Ownership

/-! What the preemption lock promises in every run: it names the context inside a section. -/

namespace Scars.Machine

open Runs

variable {machine machine' : Machine} {fuel : Nat} {program : Program} {rest : List Instr}

/-- The context is between the acquisition of a section and the store that unlocks. -/
def InSection (machine : Machine) : ExecutionContext → Prop
  | .thread thread => 0 < sectionDepth (machine.code thread)
  | .interrupt handler =>
      ∃ frame ∈ machine.frames, frame.handler = handler ∧ 0 < sectionDepth frame.code

/-- The machine, started on a program and interrupted at any point. -/
abbrev Reached (fuel : Nat) (program : Program) (machine : Machine) : Prop :=
  Reaches (Machine.step fuel) (fun _ _ => True) (Machine.start program) machine

theorem Reached.exclusive (reached : Reached fuel program machine) : machine.Exclusive :=
  reached.invariant Exclusive (start_exclusive program) fun _ _ _ hx _ hs =>
    hx.step hs

theorem mem_stack {context : ExecutionContext} {code : List Instr}
    (hm : (context, code) ∈ machine.stack)
    : (∃ frame ∈ machine.frames, context = .interrupt frame.handler ∧ code = frame.code)
      ∨ context = .thread machine.raw.currentThread
        ∧ code = machine.code machine.raw.currentThread := by
  unfold stack at hm
  rcases List.mem_append.mp hm with above | bottom
  · obtain ⟨frame, active, he⟩ := List.mem_map.mp above
    cases he
    exact Or.inl ⟨frame, active, rfl, rfl⟩
  · cases List.mem_singleton.mp bottom
    exact Or.inr ⟨rfl, rfl⟩

section

variable (hx : machine.Exclusive)
include hx

/-- The lock names a context exactly while that context is inside a section. Witness: the
holder is on the stack, and threads that are not current are outside of all sections.
-/
theorem Exclusive.lock_eq_some_iff (context : ExecutionContext)
    : machine.preemptLock = some context ↔ machine.InSection context := by
  constructor
  · intro taken
    have held := hx.held
    rw [taken] at held
    obtain ⟨code, depth, hm, balanced⟩ := held.mem
    have inside : 0 < sectionDepth code := by
      rw [balanced.sectionDepth_eq]
      omega
    rcases mem_stack hm with ⟨frame, active, rfl, rfl⟩ | ⟨rfl, rfl⟩
    · exact ⟨frame, active, rfl, inside⟩
    · exact inside
  · intro inside
    cases context with
    | thread thread =>
        have current : thread = machine.raw.currentThread := by
          by_contra other
          have outside := (hx.others thread other).sectionDepth_eq
          exact absurd inside (by simp [InSection, outside])
        subst current
        have hm : (ExecutionContext.thread machine.raw.currentThread,
            machine.code machine.raw.currentThread) ∈ machine.stack := by
          simp [stack]
        exact hx.held.inside hm inside
    | interrupt handler =>
        obtain ⟨frame, active, rfl, inside⟩ := inside
        have hm : (ExecutionContext.interrupt frame.handler, frame.code)
            ∈ machine.stack :=
          List.mem_append_left _ (List.mem_map.mpr ⟨frame, active, rfl⟩)
        exact hx.held.inside hm inside

theorem Exclusive.lock_eq_none_iff
    : machine.preemptLock = none ↔ ∀ context, ¬ machine.InSection context := by
  rw [Option.eq_none_iff_forall_ne_some]
  exact forall_congr' fun context => not_congr (hx.lock_eq_some_iff context)

/-- An interrupt is refused the lock by another context's section, and by nothing else. -/
theorem Exclusive.refused_iff (interrupt : machine.context.isInterrupt = true)
    : tryAcquireNestingLock machine.preemptLock machine.context = none
      ↔ ∃ other, other ≠ machine.context ∧ machine.InSection other := by
  simp only [← hx.lock_eq_some_iff]
  cases executing : machine.context with
  | thread thread => simp [executing, ExecutionContext.isInterrupt] at interrupt
  | interrupt handler =>
      cases taken : machine.preemptLock with
      | none => simp [tryAcquireNestingLock]
      | some holder => simp [tryAcquireNestingLock, eq_comm]

theorem Exclusive.lock_of_thread (thread : machine.context.isInterrupt = false)
    : machine.preemptLock = none ∨ machine.preemptLock = some machine.context := by
  have held := hx.held
  rw [stack_eq, interrupted_of_thread thread] at held
  rcases held with ⟨-, -, free, -⟩ | ⟨own, -⟩
  · exact Or.inl free
  · exact Or.inr own

end

theorem running_setRunning (machine : Machine) (code : List Instr)
    : (machine.setRunning code).running = code := by
  unfold setRunning running
  cases active : machine.frames with
  | nil => simp
  | cons frame below => rfl

theorem Exclusive.release_inner (hx : machine.Exclusive) {restoreState : RestoreState}
    (hrun : machine.running = .release restoreState :: rest) (inner : 0 < sectionDepth rest)
    (now : Instant)
    : machine.exec fuel now = .ok (machine.setRunning rest) := by
  have held := hx.held
  rw [stack_eq, hrun] at held
  obtain ⟨-, ⟨depth, -, -, outermost, balanced⟩, -⟩ := held.holder (by
    rw [sectionDepth_cons]
    omega)
  have nested : restoreState.previous ≠ none := by
    intro first
    have single := outermost.mp first
    rw [balanced.sectionDepth_eq] at inner
    omega
  unfold exec
  rw [hrun]
  simp only [Instr.perform, releaseNestingLock, if_neg nested, Except.map, Machine.goOn,
    Instr.enters, List.nil_append]
  unfold Machine.setRunning
  cases machine.frames <;> rfl

theorem Exclusive.borrowMut (hx : machine.Exclusive)
    (hrun : machine.running = .borrowMut :: rest)
    : machine.borrowed = false := by
  have held := hx.held
  rw [stack_eq, hrun] at held
  rcases held with ⟨⟨inside, -⟩, -⟩ | ⟨-, ⟨depth, -, free, -⟩, -⟩
  · cases inside
  · exact free

/-- The lock is null exactly while nobody is inside a section, it is refused to an interrupt
exactly while another context is, the release of an inner section keeps it, a thread never takes
it from another context, and the scheduler is never borrowed twice. Witness: every step keeps the
sections of different contexts apart.
-/
theorem lock_excludes (reached : Reached fuel program machine)
    : (machine.preemptLock = none ↔ ∀ context, ¬ machine.InSection context)
      ∧ (machine.context.isInterrupt = true
        → (tryAcquireNestingLock machine.preemptLock machine.context = none
          ↔ ∃ other, other ≠ machine.context ∧ machine.InSection other))
      ∧ (∀ restoreState rest now,
          machine.running = .release restoreState :: rest
          → 0 < sectionDepth rest
          → ∃ next,
              machine.exec fuel now = .ok next
              ∧ next.preemptLock = machine.preemptLock
              ∧ next.running = rest)
      ∧ (machine.context.isInterrupt = false
        → machine.preemptLock = none ∨ machine.preemptLock = some machine.context)
      ∧ ∀ rest, machine.running = .borrowMut :: rest → machine.borrowed = false := by
  have hx := reached.exclusive
  refine ⟨hx.lock_eq_none_iff, hx.refused_iff, ?_, hx.lock_of_thread,
    fun rest => hx.borrowMut⟩
  intro restoreState rest now hrun inner
  refine ⟨_, hx.release_inner hrun inner now, ?_, running_setRunning machine rest⟩
  unfold setRunning
  cases machine.frames <;> rfl

/-- Handler 3 interrupts a closure of the idle thread that holds the lock, and is refused. -/
theorem lock_excludes_handler
    : let program : Program :=
        ⟨fun thread => .thread thread.toUInt8, fun _ => .interrupt 4, fun _ => .interrupt 1⟩
      let ran := run (Machine.step 1) (Machine.start program)
        [.call (.preemptLock true), .exec 0, .fire 3]
      ∃ machine,
        ran = .ok machine
        ∧ machine.context = .interrupt 3
        ∧ tryAcquireNestingLock machine.preemptLock machine.context = none
        ∧ ∃ other, other ≠ .interrupt 3 ∧ machine.InSection other := by
  intro program ran
  obtain ⟨machine, ended⟩ : ∃ machine, ran = .ok machine := by
    unfold ran program
    exact ⟨_, rfl⟩
  have context : machine.context = .interrupt 3 :=
    view_of_ok Machine.context ended (by unfold ran program; rfl)
  have taken : machine.preemptLock = some (.thread IDLE_THREAD_ID) :=
    view_of_ok (fun machine => machine.preemptLock) ended (by unfold ran program; rfl)
  have refused : tryAcquireNestingLock machine.preemptLock machine.context = none := by
    rw [taken, context]
    rfl
  have reached := Reaches.here.run (fun _ _ _ => trivial) ended
  have inside := ((lock_excludes reached).2.1 (by rw [context]; rfl)).mp refused
  rw [context] at inside
  exact ⟨machine, ended, context, refused, inside⟩

end Scars.Machine
