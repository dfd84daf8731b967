import Mathlib.Tactic.IntervalCases
import Scars.Arch.TrapHandler

/-! The code after the kernel's handler, one instruction at a time.
If the handler returns with interrupts disabled, they stay so until a thread is resumed, and the
instructions do together what the path does as a whole.
-/

namespace Scars

open Rv32

variable {layout : TrapLayout} {due : Word → Option Snapshot} {calls : TrapCalls} {cpu : Cpu}
  {place : ReturnPlace} {start : Cpu} {code rest : List Instr}

/-- What the kernel's handler left, and what `_restore_interrupt_threshold` is about to keep. -/
structure Handled (layout : TrapLayout) (waiting : Word → Option Snapshot) (context : Word)
    (saved : Snapshot) (calls : TrapCalls) (cpu : Cpu) : Prop
    extends Entered layout waiting context saved cpu where
  isContext : layout.isContext context = true
  contexts : ∀ other, (waiting other).isSome = true → layout.isContext other = true
  isNext : layout.isContext (cpu.mem layout.currentThreadContext) = true
  abides
    : RestoreAbides layout (dueWith waiting context saved) cpu
        (calls.restoreInterruptThreshold (atRestore layout cpu))
  csr : (calls.restoreInterruptThreshold (atRestore layout cpu)).csr = (atRestore layout cpu).csr
  keptOld
    : (calls.restoreInterruptThreshold (atRestore layout cpu)).reg t5
      = (atRestore layout cpu).reg t5
  keptNew
    : (calls.restoreInterruptThreshold (atRestore layout cpu)).reg t6
      = (atRestore layout cpu).reg t6
  masked : cpu.csr .mstatus &&& mieBit = 0

/-- Part of some code was executed since a state. -/
def Executed (code rest : List Instr) (start cpu : Cpu) : Prop :=
  ∃ executed, executed ++ rest = code ∧ cpu = run executed start

/-- The next instruction is executed. -/
theorem Executed.next {instr : Instr} (executed : Executed code (instr :: rest) start cpu)
    : Executed code rest start (instr.exec cpu) := by
  obtain ⟨first, whole, rfl⟩ := executed
  exact ⟨first ++ [instr], by rw [← whole, List.append_assoc]; rfl, by rw [run_append]; rfl⟩

/-- All of the code was executed. -/
theorem Executed.all {code : List Instr} (executed : Executed code [] start cpu)
    : cpu = run code start := by
  obtain ⟨first, whole, rfl⟩ := executed
  rw [← whole, List.append_nil]

/-- A control register that the code does not write is as it was. -/
theorem Executed.csr {csr : Csr} (executed : Executed code rest start cpu)
    (untouched : some csr ∉ code.map Instr.csrTarget)
    : cpu.csr csr = start.csr csr := by
  obtain ⟨first, rfl, rfl⟩ := executed
  rw [List.map_append, List.mem_append, not_or] at untouched
  exact run_csr untouched.1 start

/-- What holds on the way back from a trap of a thread. -/
def Returning (layout : TrapLayout) (due : Word → Option Snapshot) (calls : TrapCalls) (cpu : Cpu)
    : ReturnPlace → Prop
  | .enterUser rest =>
      ∃ waiting context saved handled,
        Handled layout waiting context saved calls handled
        ∧ due = dueWith waiting context saved
        ∧ Executed enterUser rest handled cpu
  | .returnToInterrupt _ => False
  | .returnToThread rest =>
      ∃ waiting context saved handled,
        Handled layout waiting context saved calls handled
        ∧ due = dueWith waiting context saved
        ∧ Executed (returnToThread layout) rest (run enterUser handled) cpu
  | .switchThread rest =>
      (∃ next, layout.isContext next = true ∧ Resumed layout due next (mret (run rest cpu)))
      ∧ (∀ other, (due other).isSome = true → layout.isContext other = true)
      ∧ cpu.csr .mstatus &&& mieBit = 0
      ∧ some .mstatus ∉ rest.map Instr.csrTarget

/-- The bits of `mstatus` that `return_to_thread` clears and sets are others than `mie`. -/
theorem mie_restoreStatus (mstatus saved : Word)
    : ((mstatus &&& ~~~0x1880) ||| (saved &&& 0x1880)) &&& mieBit = mstatus &&& mieBit := by
  have cleared : (~~~0x1880 : Word) &&& mieBit = mieBit := by decide
  have set : (0x1880 : Word) &&& mieBit = 0 := by decide
  rw [BitVec.and_or_distrib_right, BitVec.and_assoc, BitVec.and_assoc, cleared, set]
  simp

/-- `return_to_thread` leaves `mie` alone, wherever it is interrupted: only two of its
instructions write `mstatus`.
-/
theorem Executed.mie {rest : List Instr}
    (executed : Executed (returnToThread layout) rest start cpu)
    : cpu.csr .mstatus &&& mieBit = start.csr .mstatus &&& mieBit := by
  obtain ⟨first, whole, rfl⟩ := executed
  have part : first = (returnToThread layout).take first.length := by
    rw [← whole, List.take_left]
  have short : first.length ≤ (returnToThread layout).length := by simp [← whole]
  have length : (returnToThread layout).length = 13 := rfl
  rw [length] at short
  rw [part]
  generalize first.length = count at short
  have cleared : (start.csr .mstatus &&& ~~~0x1880) &&& mieBit = start.csr .mstatus &&& mieBit := by
    simpa using mie_restoreStatus (start.csr .mstatus) 0
  interval_cases count <;> first
    | rfl
    | exact cleared
    | exact mie_restoreStatus _ _

/-- Interrupts stay disabled. -/
theorem Returning.masked (returning : Returning layout due calls cpu place)
    : cpu.csr .mstatus &&& mieBit = 0 := by
  cases place with
  | enterUser rest =>
      obtain ⟨_, _, _, handled, after, _, executed⟩ := returning
      rw [executed.csr (by decide)]
      exact after.masked
  | returnToInterrupt rest => exact returning.elim
  | returnToThread rest =>
      obtain ⟨_, _, _, handled, after, _, executed⟩ := returning
      have popped : (run enterUser handled).csr .mstatus = handled.csr .mstatus :=
        run_csr (by decide) handled
      rw [executed.mie, popped]
      exact after.masked
  | switchThread rest => exact returning.2.2.1

/-- The registers of the thread are loaded without a write to `mstatus`. -/
theorem switchCode_csr (cpu : Cpu) : some .mstatus ∉ (switchCode cpu).map Instr.csrTarget := by
  unfold switchCode
  split <;> decide

/-- Whatever `_restore_interrupt_threshold` returns to, the rest of the path resumes a thread. -/
theorem Handled.switches {waiting : Word → Option Snapshot} {context : Word} {saved : Snapshot}
    {handled : Cpu} (after : Handled layout waiting context saved calls handled)
    : Returning layout (dueWith waiting context saved) calls
        (calls.restoreInterruptThreshold (atRestore layout handled))
        (.switchThread
          (switchCode (calls.restoreInterruptThreshold (atRestore layout handled)))) := by
  have resumed := after.toEntered.resumes after.isContext after.contexts after.isNext after.abides
    after.csr after.keptOld after.keptNew
  refine ⟨⟨_, after.isNext, resumed⟩, fun other isDue => ?_, ?_, switchCode_csr _⟩
  · by_cases own : other = context
    · rw [own]
      exact after.isContext
    · rw [dueWith, Function.update_of_ne own] at isDue
      exact after.contexts other isDue
  · have path : Returning layout (dueWith waiting context saved) calls (atRestore layout handled)
        (.returnToThread []) :=
      ⟨waiting, context, saved, handled, after, rfl, _, List.append_nil _, rfl⟩
    rw [after.csr]
    exact path.masked

end Scars
