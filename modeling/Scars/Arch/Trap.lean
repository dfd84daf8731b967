import Scars.Foundation.Rv32

/-! The trap code of the RISC-V port (`trap.S`) and `kernel_trap_handler`.
The assembly is cut at its branches and calls; the program counter is followed only where a trap is
taken and where the code returns. Other functions it calls are parameters.
-/

namespace Scars

open Rv32

/-- Where the trap code is after the return of `kernel_trap_handler`, with the instructions that
come before the next branch or call.
-/
inductive ReturnPlace where
  | enterUser (rest : List Instr)
  | returnToInterrupt (rest : List Instr)
  | returnToThread (rest : List Instr)
  /-- After the call of `_restore_interrupt_threshold`. -/
  | switchThread (rest : List Instr)

/-- Where the port keeps its data: `CURRENT_THREAD_CONTEXT`, the ISR stack and the
`RISCVTrapFrame`s of the threads, which do not overlap; and its code that returns from a trap.
-/
structure TrapLayout where
  returnAddress : ReturnPlace → Word
  currentThreadContext : Word
  isrStackEnd : Word
  isContext : Word → Bool
  ne_zero : ∀ context, isContext context = true → context ≠ 0
  apart
    : ∀ context other slot slot',
        isContext context = true → isContext other = true → slot < 32 → slot' < 32
        → slotAt context slot = slotAt other slot'
        → context = other
  current_apart
    : ∀ context slot,
        isContext context = true → slot < 32 → slotAt context slot ≠ currentThreadContext
  stack_apart
    : ∀ context slot word,
        isContext context = true → slot < 32 → word < 2
        → slotAt context slot ≠ slotAt (isrStackEnd - 8) word
  current_stack : ∀ word, word < 2 → currentThreadContext ≠ slotAt (isrStackEnd - 8) word

/-- Two contexts and an ISR stack, for instance. -/
def TrapLayout.twoContexts : TrapLayout where
  returnAddress _ := 0x20000400
  currentThreadContext := 4
  isrStackEnd := 96
  isContext context := context == 128 || context == 256
  ne_zero := by simp +contextual
  apart := by
    intro context other slot slot' here there small small' same
    have equal := congrArg BitVec.toNat same
    simp only [Bool.or_eq_true, beq_iff_eq] at here there
    simp only [slotAt, BitVec.toNat_add, BitVec.toNat_ofNat] at equal
    rcases here with rfl | rfl <;> rcases there with rfl | rfl <;> simp at equal ⊢ <;> omega
  current_apart := by
    intro context slot here small same
    have equal := congrArg BitVec.toNat same
    simp only [Bool.or_eq_true, beq_iff_eq] at here
    simp only [slotAt, BitVec.toNat_add, BitVec.toNat_ofNat] at equal
    rcases here with rfl | rfl <;> simp at equal <;> omega
  stack_apart := by
    intro context slot word here small small' same
    have equal := congrArg BitVec.toNat same
    simp only [Bool.or_eq_true, beq_iff_eq] at here
    simp only [slotAt, BitVec.toNat_add, BitVec.toNat_ofNat] at equal
    rcases here with rfl | rfl <;> simp at equal <;> omega
  current_stack := by decide

/-- How the functions behave that the trap code calls. -/
structure TrapCalls where
  saveInterruptThreshold : Cpu → Cpu
  /-- The kernel's handler for the cause, with the code around it in `kernel_trap_handler`. -/
  kernel : Cpu → Cpu
  /-- What `kernel_syscall_handler` returns. -/
  syscallResult : Word
  restoreInterruptThreshold : Cpu → Cpu

/-- Calls that change nothing. -/
def TrapCalls.quiet : TrapCalls := ⟨id, id, 0, id⟩

/-- The registers that `save_context_to_thread` stores at once, with their words of
`RISCVTrapFrame`.
-/
def callerSlots : List (Reg × Nat) :=
  [(ra, 0), (sp, 1), (t0, 2), (t1, 3), (t2, 4), (a0, 7), (a1, 8), (a2, 9), (a3, 10), (a4, 11),
    (a5, 12), (a6, 13), (a7, 14), (t3, 25), (t4, 26), (t5, 27)]

/-- The registers that are stored when the thread is switched. -/
def calleeSlots : List (Reg × Nat) :=
  [(s0, 5), (s1, 6), (s2, 15), (s3, 16), (s4, 17), (s5, 18), (s6, 19), (s7, 20), (s8, 21),
    (s9, 22), (s10, 23), (s11, 24)]

/-- The registers in the order in which `restore_caller` loads them, except `t6`. -/
def restoreSlots : List (Reg × Nat) :=
  [(sp, 1), (ra, 0), (t0, 2), (t1, 3), (t2, 4), (a0, 7), (a1, 8), (a2, 9), (a3, 10), (a4, 11),
    (a5, 12), (a6, 13), (a7, 14), (t3, 25), (t4, 26), (t5, 27)]

/-- The registers that a nested trap stores on the ISR stack, except `t6`. -/
def stackSlots : List (Reg × Nat) :=
  [(ra, 0), (t0, 1), (t1, 2), (t2, 3), (a0, 4), (a1, 5), (a2, 6), (a3, 7), (a4, 8), (a5, 9),
    (a6, 10), (a7, 11), (t3, 12), (t4, 13), (t5, 14)]

/-- The first instruction of `_trap_vector`. -/
def swapScratch : List Instr := [.csrrw t6 .mscratch t6]

/-- `save_context_to_stack`. -/
def saveContextToStack : List Instr :=
  [.addi sp sp (-(17 * 4))] ++ saves sp stackSlots
    ++ [.csrr t6 .mscratch, .sw t6 (15 * 4) sp, .addi sp sp (-4), .li a6 1, .sw a6 0 sp]

/-- `save_context_to_thread` up to its call. -/
def saveContextToThread : List Instr := saves t6 callerSlots ++ [.mv a0 t6]

/-- The rest of `save_context_to_thread`. -/
def saveTrapState (layout : TrapLayout) : List Instr :=
  [.mv t5 t6, .csrr t6 .mscratch, .sw t6 (28 * 4) t5, .csrr a0 .mepc, .sw a0 (29 * 4) t5,
    .csrr a5 .mstatus, .sw a5 (30 * 4) t5, .la sp layout.isrStackEnd, .addi sp sp (-4), .sw t5 0 sp,
    .addi sp sp (-4), .sw zero 0 sp]

/-- `enter_handler` up to its call. -/
def enterHandler : List Instr :=
  [.csrw .mscratch zero, .csrr a0 .mepc, .csrr a1 .mtval, .csrr a2 .mcause]

/-- `_enter_user`. -/
def enterUser : List Instr := [.lw t5 0 sp, .addi sp sp 4]

/-- `return_to_interrupt`. -/
def returnToInterrupt : List Instr :=
  loads sp (stackSlots ++ [(t6, 15)]) ++ [.addi sp sp (16 * 4)]

/-- `mpie` and `mpp` are taken from the context. -/
def restoreStatus : List Instr :=
  [.lw t0 (30 * 4) t6, .li t1 0x1880, .and t0 t0 t1, .csrc .mstatus t1, .csrs .mstatus t0]

/-- `return_to_thread` up to its call. -/
def returnToThread (layout : TrapLayout) : List Instr :=
  [.lw t5 0 sp, .addi sp sp 4, .la t0 layout.currentThreadContext, .lw t6 0 t0, .csrw .mscratch t6,
    .lw t0 (29 * 4) t6, .csrw .mepc t0] ++ restoreStatus ++ [.mv a0 t6]

/-- `restore_callee`. -/
def restoreCallee : List Instr := loads t6 calleeSlots

/-- `restore_caller`. -/
def restoreCaller : List Instr := loads t6 restoreSlots ++ [.lw t6 (28 * 4) t6]

/-- `_start_first_thread`, up to the label where it jumps to. -/
def startFirstThread (layout : TrapLayout) : List Instr :=
  [.mv a5 a0, .la a1 layout.currentThreadContext, .sw a0 0 a1, .mv t6 a0, .csrw .mscratch t6,
    .lw t0 (29 * 4) t6, .csrw .mepc t0] ++ restoreStatus

/-- `mie` and `mpie` of `mstatus`. -/
def mieBit : Word := 0x8
def mpieBit : Word := 0x80

/-- The hart takes a trap in machine mode: interrupts are disabled, and `mpie` and `mpp` tell the
state before.
-/
def takeTrap (mcause mtval : Word) (cpu : Cpu) : Cpu :=
  let mstatus := cpu.csr .mstatus
  let mpie := if mstatus &&& mieBit = 0 then 0 else mpieBit
  { cpu with
    csr := fun
      | .mstatus => (mstatus &&& ~~~(mieBit ||| mpieBit)) ||| mpie ||| 0x1800
      | .mepc => cpu.pc
      | .mtval => mtval
      | .mcause => mcause
      | .mscratch => cpu.csr .mscratch }

/-- `mret`; the privilege mode is not followed. -/
def mret (cpu : Cpu) : Cpu :=
  let mstatus := cpu.csr .mstatus
  let mie := if mstatus &&& mpieBit = 0 then 0 else mieBit
  { cpu.setCsr .mstatus ((mstatus &&& ~~~mieBit) ||| mie ||| mpieBit) with pc := cpu.csr .mepc }

theorem mret_reg (cpu : Cpu) : (mret cpu).reg = cpu.reg := rfl

theorem mret_mem (cpu : Cpu) : (mret cpu).mem = cpu.mem := rfl

theorem mret_mscratch (cpu : Cpu) : (mret cpu).csr .mscratch = cpu.csr .mscratch := rfl

theorem mret_pc (cpu : Cpu) : (mret cpu).pc = cpu.csr .mepc := rfl

/-- `ret`. -/
def ret (cpu : Cpu) : Cpu := { cpu with pc := cpu.reg ra }

def isAsync (mcause : Word) : Bool := (mcause >>> 31) &&& 1 == 1

def exceptionCode (mcause : Word) : Word := mcause &&& ((1 <<< 30) - 1)

/-- An environment call. -/
def isEcall (mcause : Word) : Bool :=
  !isAsync mcause && [8, 9, 11].contains (exceptionCode mcause)

/-- A machine timer or external interrupt. -/
def isInterrupt (mcause : Word) : Bool :=
  isAsync mcause && [7, 11].contains (exceptionCode mcause)

/-- The handler is entered: for an environment call the program counter of the current thread is
set behind it.
-/
def enterTrapHandler (layout : TrapLayout) (cpu : Cpu) : Cpu :=
  if isEcall (cpu.reg a2) then
    cpu.store (slotAt (cpu.mem layout.currentThreadContext) 29) (cpu.reg a0 + 4)
  else
    cpu

/-- `kernel_trap_handler` for the causes it returns from. The context of an environment call is
looked up once.
-/
def kernelTrapHandler (layout : TrapLayout) (calls : TrapCalls) (cpu : Cpu) : Cpu :=
  let after := calls.kernel (enterTrapHandler layout cpu)
  if isEcall (cpu.reg a2) then
    after.store (slotAt (cpu.mem layout.currentThreadContext) 10) calls.syscallResult
  else
    after

/-- `_trap_vector` and `save_context_to_thread`, up to the call of `_save_interrupt_threshold`. -/
def atSave (cpu : Cpu) : Cpu := run saveContextToThread (run swapScratch cpu)

/-- `_trap_vector` up to the call of `kernel_trap_handler`. A null `mscratch` tells a nested
trap.
-/
def enterTrap (layout : TrapLayout) (calls : TrapCalls) (cpu : Cpu) : Cpu :=
  if (run swapScratch cpu).reg t6 ≠ 0 then
    run (saveTrapState layout ++ enterHandler) (calls.saveInterruptThreshold (atSave cpu))
  else
    run (saveContextToStack ++ enterHandler) (run swapScratch cpu)

/-- `return_to_thread` after its call: the callee-saved registers are switched too if the thread
is another one.
-/
def switchCode (cpu : Cpu) : List Instr :=
  if cpu.reg t5 = cpu.reg t6 then restoreCaller
  else saves t5 calleeSlots ++ restoreCallee ++ restoreCaller

def switchThread (cpu : Cpu) : Cpu := mret (run (switchCode cpu) cpu)

/-- From the return of `kernel_trap_handler` to the call of `_restore_interrupt_threshold`. -/
def atRestore (layout : TrapLayout) (cpu : Cpu) : Cpu :=
  run (returnToThread layout) (run enterUser cpu)

/-- From the return of `kernel_trap_handler` on. -/
def leaveTrap (layout : TrapLayout) (calls : TrapCalls) (cpu : Cpu) : Cpu :=
  if (run enterUser cpu).reg t5 = 0 then
    switchThread (calls.restoreInterruptThreshold (atRestore layout cpu))
  else
    ret (run returnToInterrupt (run enterUser cpu))

def trapVector (layout : TrapLayout) (calls : TrapCalls) (cpu : Cpu) : Cpu :=
  leaveTrap layout calls (kernelTrapHandler layout calls (enterTrap layout calls cpu))

/-- `_start_first_thread` in a call with the context of the thread. -/
def startThread (layout : TrapLayout) (context : Word) (cpu : Cpu) : Cpu :=
  mret (run (startFirstThread layout ++ restoreCallee ++ restoreCaller) (cpu.set a0 context))

end Scars
