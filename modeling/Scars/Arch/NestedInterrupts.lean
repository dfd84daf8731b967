import Scars.Arch.Trap

/-! Interrupts inside of a trap handler.
A handler is a tree: its own code, and the interrupts between. A nested interrupt never returns to
where it interrupted: its frame on the ISR stack is one word longer than what is popped, and the
code returns to the interrupted function's caller.
-/

namespace Scars

open Rv32

/-- What happens from the call of the kernel's handler to its return. -/
inductive Handling where
  | done
  /-- Code of the handler runs. -/
  | code (effect : Cpu → Cpu) (rest : Handling)
  /-- An interrupt is taken, with its own handler. -/
  | interrupt (mcause mtval : Word) (inner rest : Handling)

namespace Handling

variable {layout : TrapLayout} {calls : TrapCalls} {cpu : Cpu}

/-- Some interrupt is taken. -/
def nests : Handling → Bool
  | done => false
  | code _ rest => rest.nests
  | interrupt _ _ _ _ => true

/-- The state in which the kernel's handler of an interrupt is called. -/
def entry (layout : TrapLayout) (calls : TrapCalls) (mcause mtval : Word) (cpu : Cpu) : Cpu :=
  enterTrapHandler layout (enterTrap layout calls (takeTrap mcause mtval cpu))

/-- An interrupt from the moment it is taken to its return. -/
def nested (layout : TrapLayout) (calls : TrapCalls) (mcause mtval : Word) (kernel : Cpu → Cpu)
    (cpu : Cpu)
    : Cpu :=
  trapVector layout { calls with kernel } (takeTrap mcause mtval cpu)

def exec (layout : TrapLayout) (calls : TrapCalls) : Handling → Cpu → Cpu
  | done, cpu => cpu
  | code effect rest, cpu => rest.exec layout calls (effect cpu)
  | interrupt mcause mtval inner rest, cpu =>
      rest.exec layout calls (nested layout calls mcause mtval (inner.exec layout calls) cpu)

/-- Execution continues as if the interrupt had not been taken. -/
structure Restored (before after : Cpu) : Prop where
  pc : after.pc = before.pc
  reg : ∀ r, after.reg r = before.reg r
  mie : after.csr .mstatus &&& mieBit = before.csr .mstatus &&& mieBit
  mscratch : after.csr .mscratch = 0

/-- Every interrupt, at every depth, returns to where it interrupted. -/
def Transparent (layout : TrapLayout) (calls : TrapCalls) : Handling → Cpu → Prop
  | done, _ => True
  | code effect rest, cpu => rest.Transparent layout calls (effect cpu)
  | interrupt mcause mtval inner rest, cpu =>
      let after := nested layout calls mcause mtval (inner.exec layout calls) cpu
      Restored cpu after
      ∧ inner.Transparent layout calls (entry layout calls mcause mtval cpu)
      ∧ rest.Transparent layout calls after

/-- The words that a nested trap pushed. -/
def inFrame (cpu : Cpu) (address : Word) : Prop := ∃ slot < 18, address = slotAt (cpu.reg sp) slot

/-- Handlers obey the calling convention as long as the interrupts inside of them return to
where they interrupted, and do not touch `mscratch`.
-/
def Obeys (layout : TrapLayout) (calls : TrapCalls) : Handling → Cpu → Prop
  | done, _ => True
  | code effect rest, cpu =>
      (effect cpu).csr .mscratch = cpu.csr .mscratch ∧ rest.Obeys layout calls (effect cpu)
  | interrupt mcause mtval inner rest, cpu =>
      let called := entry layout calls mcause mtval cpu
      isInterrupt mcause = true
      ∧ inner.Obeys layout calls called
      ∧ (inner.Transparent layout calls called
        → Abides (inFrame called) called (inner.exec layout calls called))
      ∧ rest.Obeys layout calls (nested layout calls mcause mtval (inner.exec layout calls) cpu)

theorem not_isEcall {mcause : Word} (interrupt : isInterrupt mcause = true)
    : isEcall mcause = false := by
  simp only [isInterrupt, Bool.and_eq_true] at interrupt
  simp [isEcall, interrupt.1]

/-- The frame of a nested trap is pushed below the interrupted stack pointer, with the marker on
top.
-/
theorem run_saveContextToStack (cpu : Cpu)
    : (run saveContextToStack cpu).reg sp = cpu.reg sp - 72
      ∧ (run saveContextToStack cpu).mem (cpu.reg sp - 72) = 1 := by
  have saved := congrFun (run_saves sp stackSlots (run [.addi sp sp (-(17 * 4))] cpu)).1 sp
  have allocated : (run [.addi sp sp (-(17 * 4))] cpu).reg sp = -(17 * 4) + cpu.reg sp := rfl
  rw [allocated] at saved
  rw [saveContextToStack, run_append, run_append]
  generalize run (saves sp stackSlots) (run [.addi sp sp (-(17 * 4))] cpu) = frame at saved
  have pushed : -4 + frame.reg sp = cpu.reg sp - 72 := by
    rw [saved]
    bv_omega
  constructor
  · simp only [run, Instr.exec]
    rw [← pushed]
    rfl
  · rw [← pushed]
    simp only [run, Instr.exec]
    simp [sp, t6, a6]

theorem entry_eq {mcause : Word} (inside : cpu.csr .mscratch = 0)
    (interrupt : isInterrupt mcause = true) (layout : TrapLayout) (calls : TrapCalls) (mtval : Word)
    : enterTrap layout calls (takeTrap mcause mtval cpu) = entry layout calls mcause mtval cpu
      ∧ (entry layout calls mcause mtval cpu).reg a2 = mcause
      ∧ (entry layout calls mcause mtval cpu).reg sp = cpu.reg sp - 72
      ∧ (entry layout calls mcause mtval cpu).mem (cpu.reg sp - 72) = 1 := by
  have entered : enterTrap layout calls (takeTrap mcause mtval cpu)
      = run enterHandler
          (run saveContextToStack (run swapScratch (takeTrap mcause mtval cpu))) :=
    (if_neg (not_not.mpr inside)).trans (run_append _ _ _)
  obtain ⟨pushed, marked⟩ :=
    run_saveContextToStack (run swapScratch (takeTrap mcause mtval cpu))
  have cause : (enterTrap layout calls (takeTrap mcause mtval cpu)).reg a2 = mcause := by
    have kept : (run saveContextToStack (run swapScratch (takeTrap mcause mtval cpu))).csr .mcause
        = mcause := run_csr (by decide) _
    rw [entered]
    exact kept
  have he : entry layout calls mcause mtval cpu
      = enterTrap layout calls (takeTrap mcause mtval cpu) := by
    rw [entry, enterTrapHandler, cause, not_isEcall interrupt]
    rfl
  rw [he]
  refine ⟨rfl, cause, ?_, ?_⟩
  · rw [entered, run_reg (by decide)]
    exact pushed
  · rw [entered]
    exact marked

/-- The marker tells the return from a nested trap. -/
theorem leaveTrap_nested (marked : cpu.mem (cpu.reg sp) ≠ 0) (layout : TrapLayout)
    (calls : TrapCalls)
    : leaveTrap layout calls cpu = ret (run returnToInterrupt (run enterUser cpu)) := by
  refine if_neg fun he => marked ?_
  simpa [run, enterUser, Instr.exec, sp, t5] using he

/-- The stack pointer is one word too low after the return of a nested interrupt. -/
theorem nested_sp {mcause mtval : Word} {kernel : Cpu → Cpu} (inside : cpu.csr .mscratch = 0)
    (interrupt : isInterrupt mcause = true)
    (abides
      : Abides (inFrame (entry layout calls mcause mtval cpu)) (entry layout calls mcause mtval cpu)
          (kernel (entry layout calls mcause mtval cpu)))
    : (nested layout calls mcause mtval kernel cpu).reg sp = cpu.reg sp - 4 := by
  obtain ⟨entered, cause, pushed, marked⟩ :=
    entry_eq inside interrupt layout { calls with kernel } mtval
  have called : entry layout { calls with kernel } mcause mtval cpu
      = entry layout calls mcause mtval cpu := rfl
  rw [called] at entered cause pushed marked
  generalize entry layout calls mcause mtval cpu = before at abides entered cause pushed marked
  have handled : kernelTrapHandler layout { calls with kernel } before = kernel before := by
    simp only [kernelTrapHandler, enterTrapHandler, cause, not_isEcall interrupt,
      Bool.false_eq_true, if_false]
  have kept : (kernel before).reg sp = cpu.reg sp - 72 :=
    (abides.reg sp (by decide)).trans pushed
  have top : slotAt (before.reg sp) 0 = cpu.reg sp - 72 := by simp [slotAt, pushed]
  have marker : (kernel before).mem ((kernel before).reg sp) ≠ 0 := by
    rw [kept, abides.mem _ ⟨0, by decide, top.symm⟩, marked]
    decide
  have popped : (run [.addi sp sp (16 * 4)]
        (run (loads sp (stackSlots ++ [(t6, 15)])) (run enterUser (kernel before)))).reg sp
      = 16 * 4
        + (run (loads sp (stackSlots ++ [(t6, 15)])) (run enterUser (kernel before))).reg sp :=
    rfl
  have user : (run enterUser (kernel before)).reg sp = 4 + (kernel before).reg sp := rfl
  rw [nested, trapVector, entered, handled, leaveTrap_nested marker, returnToInterrupt, run_append]
  change (run [.addi sp sp (16 * 4)] _).reg sp = _
  rw [popped, run_loads_other _ (by decide), user, kept]
  bv_omega

/-- Whatever a handler does, and however deep the interrupts inside of it are nested: if it takes
one, one does not return to where it interrupted. Witness: the outermost, whose handler obeys the
convention once the interrupts inside of it return.
-/
theorem nested_interrupt_not_transparent (layout : TrapLayout) (calls : TrapCalls)
    (handling : Handling) (cpu : Cpu) (inside : cpu.csr .mscratch = 0)
    (nests : handling.nests = true) (obeys : handling.Obeys layout calls cpu)
    : ¬ handling.Transparent layout calls cpu := by
  induction handling generalizing cpu with
  | done => cases nests
  | code effect rest ih => exact ih (effect cpu) (obeys.1.trans inside) nests obeys.2
  | interrupt mcause mtval inner rest _ _ =>
      rintro ⟨restored, innerReturns, _⟩
      have abides := obeys.2.2.1 innerReturns
      have lower := nested_sp inside obeys.1 abides
      rw [restored.reg sp] at lower
      bv_omega

/-- Code of a handler at `0x20000200`, in a function that was called from `0x20000100`. -/
def interrupted : Cpu where
  file r := if r = sp then 88 else if r = ra then 0x20000100 else 0
  csr csr := if csr = .mstatus then mieBit else 0
  mem _ := 0
  pc := 0x20000200

/-- A timer interrupt whose handler does nothing. -/
def timerInterrupt : Handling := .interrupt 0x80000007 0 .done .done

theorem timerInterrupt_obeys : timerInterrupt.Obeys .twoContexts .quiet interrupted :=
  ⟨by decide, trivial, fun _ => .refl _, trivial⟩

theorem nested_interrupt_not_transparent_timer
    : timerInterrupt.Obeys .twoContexts .quiet interrupted
      ∧ ¬ timerInterrupt.Transparent .twoContexts .quiet interrupted :=
  ⟨timerInterrupt_obeys,
    nested_interrupt_not_transparent .twoContexts .quiet timerInterrupt interrupted rfl rfl
      timerInterrupt_obeys⟩

/-- It returns to the caller of the interrupted function, with the stack pointer one word lower. -/
theorem timer_interrupt_returns_to_caller
    : interrupted.csr .mscratch = 0
      ∧ timerInterrupt.Obeys .twoContexts .quiet interrupted
      ∧ (timerInterrupt.exec .twoContexts .quiet interrupted).pc = 0x20000100
      ∧ (timerInterrupt.exec .twoContexts .quiet interrupted).reg sp = 84
      ∧ ¬ timerInterrupt.Transparent .twoContexts .quiet interrupted := by
  have pc : (timerInterrupt.exec .twoContexts .quiet interrupted).pc = 0x20000100 := by decide
  refine ⟨rfl, timerInterrupt_obeys, pc, by decide, fun transparent => ?_⟩
  have returns : (timerInterrupt.exec .twoContexts .quiet interrupted).pc = interrupted.pc :=
    transparent.1.pc
  rw [pc] at returns
  exact absurd returns (by decide)

end Handling

end Scars
