import Scars.Preemption.Exclusion

/-! What runs at which level.
Threads switch only in the lowest interrupt context, which is also the only one to poll
executors; system calls are entered by threads alone.
-/

namespace Scars

open Memory

variable {memory memory' : Memory} {fuel : Nat} {now : Instant} {more rest : List Instr}
  {context : ExecutionContext} {level : Level} {instr : Instr}

theorem isInterrupts_of_neutral (neutral : instr.isNeutral = true)
    : instr.isInterrupts = false := by
  cases instr <;> first | rfl | cases neutral

theorem isAt_of_plain (plain : instr.isPlain = true)
    (threads : instr.isThreads = true → level = .thread)
    : instr.isAt level = true := by
  simp only [Instr.isPlain, Bool.and_eq_true, Bool.not_eq_true'] at plain
  obtain ⟨⟨neutral, exit⟩, stays⟩ := plain
  cases level with
  | thread => simp [Instr.isAt, exit, stays, isInterrupts_of_neutral neutral]
  | lowest =>
      have notThreads : instr.isThreads ≠ true := by
        intro yes
        cases threads yes
      simpa [Instr.isAt] using notThreads
  | nested =>
      have notThreads : instr.isThreads ≠ true := by
        intro yes
        cases threads yes
      simpa [Instr.isAt, exit, stays] using notThreads

theorem level_of_isThreads (ha : instr.isAt level = true) (threads : instr.isThreads = true)
    : level = .thread := by
  cases level with
  | thread => rfl
  | lowest => simp [Instr.isAt, threads] at ha
  | nested => simp [Instr.isAt, threads] at ha

theorem level_of_isExit (ha : instr.isAt level = true) (exit : instr.isExit = true)
    : level = .lowest := by
  cases level with
  | thread => simp [Instr.isAt, exit] at ha
  | lowest => rfl
  | nested => simp [Instr.isAt, exit] at ha

theorem level_of_switches (ha : instr.isAt level = true) (switches : instr.switches = true)
    : level = .lowest := by
  cases level with
  | thread => simp [Instr.isAt, switches] at ha
  | lowest => rfl
  | nested => simp [Instr.isAt, switches] at ha

/-- What does not switch, end an interrupt or belong to one kind of context may stand
anywhere.
-/
theorem isAt_of_free (stays : instr.switches = false) (exit : instr.isExit = false)
    (threads : instr.isThreads = false) (interrupts : instr.isInterrupts = false)
    : instr.isAt level = true := by
  cases level <;> simp [Instr.isAt, stays, exit, threads, interrupts]

theorem isAt_section {body : Section} (entered : (Instr.tryWith body).isAt level = true)
    : ∀ next ∈ body.code, next.isAt level = true := by
  have free {next : Instr} (stays : next.switches = false) (exit : next.isExit = false)
      (threads : next.isThreads = false) (interrupts : next.isInterrupts = false)
      : next.isAt level = true :=
    isAt_of_free stays exit threads interrupts
  cases body with
  | op method =>
      have run : (Instr.locked (.run method)).isAt level = true := by
        cases level with
        | thread => exact entered
        | lowest => rfl
        | nested => exact entered
      have code : Section.code (.op method) = [.locked (.run method)]
          ∨ Section.code (.op method) = [.borrowMut, .locked (.run method), .dropBorrow] := by
        cases method with
        | acquireScopedLock lock => exact Or.inl rfl
        | _ => exact Or.inr rfl
      rcases code with code | code <;> rw [code]
      · exact List.forall_mem_singleton.mpr run
      · simp only [List.forall_mem_cons]
        exact ⟨free rfl rfl rfl rfl, run, free rfl rfl rfl rfl, nofun⟩
  | waitCurrentThreadEvent events deadline =>
      have lowest := level_of_switches entered rfl
      subst lowest
      simp only [Section.code, List.forall_mem_cons]
      exact ⟨rfl, rfl, rfl, rfl, rfl, nofun⟩
  | closure mayBlock => exact List.forall_mem_singleton.mpr (free rfl rfl rfl rfl)

theorem isAt_more (ha : instr.isAt level = true) (kind : context.isInterrupt = level.isInterrupt)
    (hp : instr.perform fuel now context memory = .ok (memory', more))
    : ∀ next ∈ more, next.isAt level = true := by
  have free {next : Instr} (stays : next.switches = false) (exit : next.isExit = false)
      (threads : next.isThreads = false) (interrupts : next.isInterrupts = false)
      : next.isAt level = true :=
    isAt_of_free stays exit threads interrupts
  cases instr with
  | user => cases hp
  | access access =>
      obtain ⟨-, -, -, plain⟩ := access.perform_ok hp
      intro next hm
      refine isAt_of_plain (plain next hm).1 fun threads => ?_
      exact level_of_isThreads ha ((plain next hm).2 threads)
  | tryWith body =>
      rcases Section.perform_ok hp with ⟨previous, -, -, rfl⟩ | ⟨-, -, rfl⟩
      · rw [List.forall_mem_append]
        refine ⟨isAt_section ha, List.forall_mem_singleton.mpr ?_⟩
        rw [kind]
        cases level <;> rfl
      · simp
  | borrowMut =>
      obtain ⟨rfl, rfl⟩ := borrowMut_ok hp
      simp
  | locked op =>
      obtain ⟨-, -, steps, -⟩ := op.perform_ok hp
      intro next hm
      obtain ⟨step, stays, rfl⟩ := steps next hm
      exact free stays rfl rfl rfl
  | drain queue =>
      obtain ⟨popped, pending, -, -, rfl⟩ := drain_ok hp
      cases popped with
      | none => simp
      | some suspendable =>
          simp only [List.forall_mem_cons]
          exact ⟨free rfl rfl rfl rfl, free rfl rfl rfl rfl, nofun⟩
  | dropBorrow => cases hp; simp
  | release restoreState =>
      cases hp
      unfold releaseNestingLock
      split
      · simp only [List.forall_mem_cons]
        refine ⟨free rfl rfl rfl rfl, free rfl rfl rfl rfl, free rfl rfl rfl rfl,
          free rfl rfl rfl rfl, ?_, nofun⟩
        cases level <;> exact ha
      · simp
  | unlock isInterrupt =>
      cases hp
      cases isInterrupt with
      | true => simp
      | false =>
          have thread := level_of_isThreads ha rfl
          subst thread
          exact List.forall_mem_singleton.mpr rfl
  | checkPending =>
      cases hp
      have thread := level_of_isThreads ha rfl
      subst thread
      split
      · exact List.forall_mem_singleton.mpr rfl
      · simp
  | yieldPending => cases hp; simp
  | syscall call => cases hp; simp
  | endWait queue => cases hp; simp
  | pollExecutor handler =>
      obtain ⟨-, rfl⟩ := setRaw_ok hp
      exact List.forall_mem_singleton.mpr (free rfl rfl rfl rfl)
  | pollPending =>
      have lowest := level_of_isExit ha rfl
      subst lowest
      obtain ⟨polls, -, rfl | ⟨handler, rfl⟩⟩ := pollPending_ok hp
      · simp
      · simp only [List.forall_mem_cons]
        exact ⟨rfl, rfl, nofun⟩
  | swapPending =>
      have lowest := level_of_isExit ha rfl
      subst lowest
      cases hp
      intro next hm
      simp only [List.mem_ite_nil_left, List.mem_singleton] at hm
      rw [hm.2]
      rfl
  | checkPolls =>
      have lowest := level_of_isExit ha rfl
      subst lowest
      cases hp
      intro next hm
      simp only [interruptExit, List.mem_ite_nil_left, List.mem_cons, List.not_mem_nil, or_false]
        at hm
      rcases hm.2 with rfl | rfl | rfl <;> rfl

theorem perform_currentThread (hp : instr.perform fuel now context memory = .ok (memory', more))
    : memory'.raw.currentThread = memory.raw.currentThread
      ∨ ∃ op, instr = .locked op ∧ op.switches = true := by
  cases instr with
  | user => cases hp
  | access access => exact Or.inl (access.perform_ok hp).2.2.1
  | tryWith body =>
      rcases Section.perform_ok hp with ⟨previous, -, rfl, -⟩ | ⟨-, refused, -⟩
      · exact Or.inl rfl
      · exact Or.inl (Section.refuse_ok refused).2
  | borrowMut =>
      obtain ⟨rfl, rfl⟩ := borrowMut_ok hp
      exact Or.inl rfl
  | locked op =>
      cases switches : op.switches with
      | true => exact Or.inr ⟨op, rfl, switches⟩
      | false => exact Or.inl ((op.perform_ok hp).2.2.2 switches)
  | drain queue =>
      obtain ⟨popped, pending, -, rfl, -⟩ := drain_ok hp
      exact Or.inl rfl
  | pollExecutor handler =>
      obtain ⟨rfl, -⟩ := setRaw_ok hp
      exact Or.inl (Kernel.adjusts_setHandlerPriorities handler _).currentThread
  | pollPending =>
      obtain ⟨polls, rfl, -⟩ := pollPending_ok hp
      exact Or.inl rfl
  | _ => cases hp; exact Or.inl rfl

end Scars
