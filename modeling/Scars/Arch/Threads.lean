import Scars.Arch.Trap
import Scars.Foundation.Runs

/-! Threads on one hart: the running thread executes, and traps save it and resume a thread.
A trap is taken with interrupts disabled, up to the kernel's handler. The code after it is executed
instruction by instruction, with interrupts in between if the handler left them enabled. What a
preempted thread is due is an observer that no step reads.
-/

namespace Scars

open Rv32 Runs

structure Snapshot where
  reg : Reg → Word
  pc : Word

/-- The state of the thread at a trap, with what an environment call changes of it. -/
def snapshot (mcause result : Word) (cpu : Cpu) : Snapshot :=
  if isEcall mcause then ⟨Function.update cpu.reg a0 result, cpu.pc + 4⟩ else ⟨cpu.reg, cpu.pc⟩

/-- A hart that runs a thread, or returns from a trap. -/
structure Hart where
  cpu : Cpu
  returning : Option (TrapCalls × ReturnPlace)
  /-- What the preempted threads are to be resumed with, by their contexts. -/
  due : Word → Option Snapshot
  /-- What the running thread was due when it was resumed, until it executes on. -/
  resumed : Option Snapshot

inductive HartEvent where
  /-- The running thread executes. -/
  | execute (after : Cpu)
  | trap (mcause mtval : Word) (calls : TrapCalls)
  /-- The trap code takes its next step. -/
  | advance

inductive HartFault where
  /-- Interrupts are disabled. -/
  | masked
  /-- The hart executes other code. -/
  | elsewhere
  /-- `on_exit` and `kernel_exception_handler` do not return. -/
  | exits
  deriving DecidableEq, Repr

namespace Hart

/-- The first thread is started. -/
def start (layout : TrapLayout) (context : Word) (boot : Cpu) : Hart where
  cpu := startThread layout context boot
  returning := none
  due := fun _ => none
  resumed := none

/-- The snapshots after a trap was taken. -/
def dueAfter (mcause : Word) (calls : TrapCalls) (hart : Hart) : Word → Option Snapshot :=
  Function.update hart.due (hart.cpu.csr .mscratch)
    (some (snapshot mcause calls.syscallResult hart.cpu))

def interruptible (cpu : Cpu) : Bool := decide (cpu.csr .mstatus &&& mieBit ≠ 0)

/-- The state in which a trap is taken. -/
def interrupted (layout : TrapLayout) (hart : Hart) : Cpu :=
  match hart.returning with
  | none => hart.cpu
  | some (_, place) => { hart.cpu with pc := layout.returnAddress place }

/-- The next instruction after `kernel_trap_handler`, or the branch or call. -/
def advance (layout : TrapLayout) (calls : TrapCalls) (hart : Hart) : ReturnPlace → Hart
  | .enterUser (instr :: rest) =>
      { hart with cpu := instr.exec hart.cpu, returning := some (calls, .enterUser rest) }
  | .enterUser [] =>
      { hart with
        returning := some (calls,
          if hart.cpu.reg t5 = 0 then .returnToThread (returnToThread layout)
          else .returnToInterrupt returnToInterrupt) }
  | .returnToInterrupt (instr :: rest) =>
      { hart with cpu := instr.exec hart.cpu, returning := some (calls, .returnToInterrupt rest) }
  | .returnToInterrupt [] => { hart with cpu := ret hart.cpu, returning := none }
  | .returnToThread (instr :: rest) =>
      { hart with cpu := instr.exec hart.cpu, returning := some (calls, .returnToThread rest) }
  | .returnToThread [] =>
      let cpu := calls.restoreInterruptThreshold hart.cpu
      { hart with cpu, returning := some (calls, .switchThread (switchCode cpu)) }
  | .switchThread (instr :: rest) =>
      { hart with cpu := instr.exec hart.cpu, returning := some (calls, .switchThread rest) }
  | .switchThread [] =>
      let cpu := mret hart.cpu
      { cpu
        returning := none
        due := Function.update hart.due (cpu.csr .mscratch) none
        resumed := hart.due (cpu.csr .mscratch) }

def step (layout : TrapLayout) (hart : Hart) : HartEvent → Except HartFault Hart
  | .execute after =>
      if hart.returning.isSome then .error .elsewhere
      else .ok { hart with cpu := after, resumed := none }
  | .trap mcause mtval calls =>
      if isInterrupt mcause && !interruptible hart.cpu then
        .error .masked
      else if isInterrupt mcause || isEcall mcause && hart.returning.isNone then
        let called := enterTrap layout calls (takeTrap mcause mtval (hart.interrupted layout))
        .ok {
          cpu := kernelTrapHandler layout calls called
          returning := some (calls, .enterUser enterUser)
          -- an interrupt of the trap code is no trap of a thread
          due := if hart.returning.isNone then hart.dueAfter mcause calls else hart.due
          resumed := none }
      else
        .error .exits
  | .advance =>
      match hart.returning with
      | none => .error .elsewhere
      | some (calls, place) => .ok (hart.advance layout calls place)

/-- A word of the context of a preempted thread, other than the one for the interrupt threshold. -/
def inContext (due : Word → Option Snapshot) (address : Word) : Prop :=
  ∃ context slot, (due context).isSome = true ∧ slot < 31 ∧ address = slotAt context slot

/-- A word that the trap code pushed to the ISR stack. -/
def onIsrStack (layout : TrapLayout) (address : Word) : Prop :=
  ∃ word < 2, address = slotAt (layout.isrStackEnd - 8) word

/-- Threads leave the contexts of others, `CURRENT_THREAD_CONTEXT` and `mscratch` alone. Functions
that the trap code calls obey the calling convention and leave the contexts alone; only the kernel
sets `CURRENT_THREAD_CONTEXT`, to some context.
-/
def Conventional (layout : TrapLayout) (hart : Hart) : HartEvent → Prop
  | .execute after =>
      after.csr .mscratch = hart.cpu.csr .mscratch
      ∧ after.mem layout.currentThreadContext = hart.cpu.mem layout.currentThreadContext
      ∧ ∀ address, inContext hart.due address → after.mem address = hart.cpu.mem address
  | .advance => True
  | .trap mcause mtval calls =>
      let trapped := takeTrap mcause mtval (hart.interrupted layout)
      let kept := inContext (hart.dueAfter mcause calls)
      let called := enterTrap layout calls trapped
      let kernel := enterTrapHandler layout called
      let restore := atRestore layout (kernelTrapHandler layout calls called)
      Abides (fun address => kept address ∨ address = layout.currentThreadContext) (atSave trapped)
          (calls.saveInterruptThreshold (atSave trapped))
      ∧ (calls.saveInterruptThreshold (atSave trapped)).csr = (atSave trapped).csr
      ∧ Abides (fun address => kept address ∨ onIsrStack layout address) kernel
          (calls.kernel kernel)
      ∧ layout.isContext ((calls.kernel kernel).mem layout.currentThreadContext) = true
      ∧ Abides (fun address => kept address ∨ address = layout.currentThreadContext) restore
          (calls.restoreInterruptThreshold restore)
      ∧ (calls.restoreInterruptThreshold restore).csr = restore.csr

/-- The two functions for the interrupt threshold keep the registers that the trap code uses over
their calls, the kernel's handler returns with interrupts disabled, and a system call's result is
what the thread has in `a0` and `a3`.
-/
def gentle (layout : TrapLayout) (hart : Hart) : HartEvent → Bool
  | .execute _ => true
  | .advance => true
  | .trap mcause mtval calls =>
      let trapped := takeTrap mcause mtval (hart.interrupted layout)
      let handled := kernelTrapHandler layout calls (enterTrap layout calls trapped)
      let restore := atRestore layout handled
      decide ((calls.saveInterruptThreshold (atSave trapped)).reg t6 = (atSave trapped).reg t6)
        && !interruptible handled
        && decide ((calls.restoreInterruptThreshold restore).reg t5 = restore.reg t5)
        && decide ((calls.restoreInterruptThreshold restore).reg t6 = restore.reg t6)
        && (!isEcall mcause
          || decide (hart.cpu.reg a0 = calls.syscallResult)
            && decide (hart.cpu.reg a3 = calls.syscallResult))

end Hart

end Scars
