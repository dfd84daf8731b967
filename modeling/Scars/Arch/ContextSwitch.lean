import Scars.Arch.Threads

/-! What one trap of a thread saves and restores.
The registers that a call may change are stored at the trap, the others when the thread is
switched; in between, a snapshot is spread over memory and registers.
-/

namespace Scars

open Rv32 Function

variable {layout : TrapLayout} {calls : TrapCalls} {cpu : Cpu} {context : Word}
  {due : Word → Option Snapshot} {pair : Reg × Nat}

/-- The registers of a snapshot, with their words of `RISCVTrapFrame`. -/
def frameSlots : List (Reg × Nat) := callerSlots ++ (t6, 28) :: calleeSlots

/-- The context holds the snapshot. -/
structure Holds (mem : Word → Word) (context : Word) (saved : Snapshot) : Prop where
  reg : ∀ pair ∈ frameSlots, mem (slotAt context pair.2) = saved.reg pair.1
  pc : mem (slotAt context 29) = saved.pc

/-- The registers that a thread may rely on are those of the snapshot. -/
structure Restored (cpu : Cpu) (saved : Snapshot) : Prop where
  reg : ∀ r, r ≠ 0 → r ≠ 3 → r ≠ 4 → cpu.reg r = saved.reg r
  pc : cpu.pc = saved.pc

theorem slot_lt (hm : pair ∈ frameSlots) : pair.2 < 29 := by
  revert pair
  decide

/-- Whatever leaves the words of a context alone leaves the snapshot. -/
theorem Holds.kept {mem mem' : Word → Word} (holds : Holds mem context saved)
    (he : ∀ slot < 31, mem' (slotAt context slot) = mem (slotAt context slot))
    : Holds mem' context saved where
  reg pair hm :=
    (he pair.2 (by have := slot_lt hm; omega)).trans (holds.reg pair hm)
  pc := (he 29 (by decide)).trans holds.pc

/-- After the save `t6` and `mscratch` are swapped; `mepc` and `mcause` tell of the trap. -/
theorem atSave_eq (mcause mtval : Word) (cpu : Cpu)
    : (atSave (takeTrap mcause mtval cpu)).reg t6 = cpu.csr .mscratch
      ∧ (atSave (takeTrap mcause mtval cpu)).csr .mscratch = cpu.reg t6
      ∧ (atSave (takeTrap mcause mtval cpu)).csr .mepc = cpu.pc
      ∧ (atSave (takeTrap mcause mtval cpu)).csr .mcause = mcause := by
  obtain ⟨reg, csr⟩ := run_saves t6 callerSlots (run swapScratch (takeTrap mcause mtval cpu))
  rw [atSave, saveContextToThread, run_append]
  refine ⟨?_, ?_, ?_, ?_⟩
  · rw [run_reg (by decide), reg]
    rfl
  · rw [run_csr (by decide), csr]
    rfl
  · rw [run_csr (by decide), csr]
    rfl
  · rw [run_csr (by decide), csr]
    rfl

theorem atSave_reg (mcause mtval : Word) (cpu : Cpu) {r : Reg} (notT6 : r ≠ t6) (notA0 : r ≠ a0)
    : (atSave (takeTrap mcause mtval cpu)).reg r = cpu.reg r := by
  rw [atSave, saveContextToThread, run_append]
  have moved : some r ∉ [Instr.mv a0 t6].map Instr.target := by simpa [Instr.target] using notA0
  have swapped : some r ∉ swapScratch.map Instr.target := by
    simpa [swapScratch, Instr.target] using notT6
  rw [run_reg moved, (run_saves _ _ _).1, run_reg swapped]
  rfl

/-- The caller-saved registers are in the context of the thread. -/
theorem atSave_mem (mcause mtval : Word) (cpu : Cpu) (hm : pair ∈ callerSlots)
    : (atSave (takeTrap mcause mtval cpu)).mem (slotAt (cpu.csr .mscratch) pair.2)
      = cpu.reg pair.1 := by
  have notT6 : ∀ pair ∈ callerSlots, pair.1 ≠ t6 := by decide
  have swapped : some pair.1 ∉ swapScratch.map Instr.target := by
    simpa [swapScratch, Instr.target] using notT6 pair hm
  have base : (run swapScratch (takeTrap mcause mtval cpu)).reg t6 = cpu.csr .mscratch := rfl
  rw [atSave, saveContextToThread, run_append, run_mem (by decide), ← base]
  rw [run_saves_mem _ (by decide) (by decide) hm, run_reg swapped]
  rfl

theorem atSave_mem_other (mcause mtval : Word) (cpu : Cpu) {address : Word}
    (apart : ∀ slot < 31, address ≠ slotAt (cpu.csr .mscratch) slot)
    : (atSave (takeTrap mcause mtval cpu)).mem address = cpu.mem address := by
  have base : (run swapScratch (takeTrap mcause mtval cpu)).reg t6 = cpu.csr .mscratch := rfl
  have small : ∀ pair ∈ callerSlots, pair.2 < 31 := by decide
  rw [atSave, saveContextToThread, run_append, run_mem (by decide), run_saves_other]
  · rfl
  · rw [base]
    exact fun pair hm => apart pair.2 (small pair hm)

/-- The rest of the frame and two words of the ISR stack are written before the handler is
called.
-/
theorem run_saveTrapState_mem (layout : TrapLayout) (cpu : Cpu)
    : (run (saveTrapState layout ++ enterHandler) cpu).mem
      = update
          (update
            (update
              (update
                (update cpu.mem (slotAt (cpu.reg t6) 28) (cpu.csr .mscratch))
                (slotAt (cpu.reg t6) 29) (cpu.csr .mepc))
              (slotAt (cpu.reg t6) 30) (cpu.csr .mstatus))
            (slotAt (layout.isrStackEnd - 8) 1) (cpu.reg t6))
          (slotAt (layout.isrStackEnd - 8) 0) 0 := by
  have old : 0 + (-4 + layout.isrStackEnd) = slotAt (layout.isrStackEnd - 8) 1 := by
    simp only [slotAt]
    bv_omega
  have top : 0 + (-4 + (-4 + layout.isrStackEnd)) = slotAt (layout.isrStackEnd - 8) 0 := by
    simp only [slotAt]
    bv_omega
  rw [run_append, run_mem (by decide), ← old, ← top]
  rfl

theorem slotAt_ne {base : Word} {slot other : Nat} (small : slot < 32) (small' : other < 32)
    (hne : slot ≠ other)
    : slotAt base slot ≠ slotAt base other :=
  fun he => hne (slotAt_inj (by omega) (by omega) he)

theorem run_saveTrapState_other (layout : TrapLayout) (cpu : Cpu) (address : Word)
    (frame : ∀ slot, 28 ≤ slot → slot < 31 → address ≠ slotAt (cpu.reg t6) slot)
    (stack : ∀ word < 2, address ≠ slotAt (layout.isrStackEnd - 8) word)
    : (run (saveTrapState layout ++ enterHandler) cpu).mem address = cpu.mem address := by
  rw [run_saveTrapState_mem, update_of_ne (stack 0 (by decide)),
    update_of_ne (stack 1 (by decide)),
    update_of_ne (frame 30 (by decide) (by decide)),
    update_of_ne (frame 29 (by decide) (by decide)),
    update_of_ne (frame 28 (by decide) (by decide))]

/-- The words that are written, if the context does not overlap the ISR stack. -/
theorem run_saveTrapState_frame (layout : TrapLayout) (cpu : Cpu)
    (isContext : layout.isContext (cpu.reg t6) = true)
    : (run (saveTrapState layout ++ enterHandler) cpu).mem (slotAt (cpu.reg t6) 28)
        = cpu.csr .mscratch
      ∧ (run (saveTrapState layout ++ enterHandler) cpu).mem (slotAt (cpu.reg t6) 29)
        = cpu.csr .mepc
      ∧ (run (saveTrapState layout ++ enterHandler) cpu).mem (slotAt (layout.isrStackEnd - 8) 0) = 0
      ∧ (run (saveTrapState layout ++ enterHandler) cpu).mem (slotAt (layout.isrStackEnd - 8) 1)
        = cpu.reg t6 := by
  have stack {slot : Nat} (small : slot < 32) (word : Nat) (small' : word < 2)
      : slotAt (cpu.reg t6) slot ≠ slotAt (layout.isrStackEnd - 8) word :=
    layout.stack_apart _ slot word isContext small small'
  rw [run_saveTrapState_mem]
  refine ⟨?_, ?_, ?_, ?_⟩
  · rw [update_of_ne (stack (by decide) 0 (by decide)),
      update_of_ne (stack (by decide) 1 (by decide)),
      update_of_ne (slotAt_ne (by decide) (by decide) (by decide)),
      update_of_ne (slotAt_ne (by decide) (by decide) (by decide)), update_self]
  · rw [update_of_ne (stack (by decide) 0 (by decide)),
      update_of_ne (stack (by decide) 1 (by decide)),
      update_of_ne (slotAt_ne (by decide) (by decide) (by decide)), update_self]
  · rw [update_self]
  · rw [update_of_ne (slotAt_ne (by decide) (by decide) (by decide)), update_self]

theorem run_saveTrapState_reg (layout : TrapLayout) (cpu : Cpu)
    : (run (saveTrapState layout ++ enterHandler) cpu).reg sp = layout.isrStackEnd - 8
      ∧ (run (saveTrapState layout ++ enterHandler) cpu).reg a0 = cpu.csr .mepc
      ∧ (run (saveTrapState layout ++ enterHandler) cpu).reg a2 = cpu.csr .mcause := by
  have top : -4 + (-4 + layout.isrStackEnd) = layout.isrStackEnd - 8 := by bv_omega
  rw [← top]
  exact ⟨rfl, rfl, rfl⟩

theorem run_saveTrapState_callee (layout : TrapLayout) (cpu : Cpu) (hm : pair ∈ calleeSlots)
    : (run (saveTrapState layout ++ enterHandler) cpu).reg pair.1 = cpu.reg pair.1 := by
  have targets : (saveTrapState layout ++ enterHandler).map Instr.target
      = [some t5, some t6, none, some a0, none, some a5, none, some sp, some sp, none, some sp,
        none, none, some a0, some a1, some a2] := rfl
  have untouched : ∀ pair ∈ calleeSlots,
      some pair.1 ∉ [some t5, some t6, none, some a0, none, some a5, none, some sp, some sp, none,
        some sp, none, none, some a0, some a1, some a2] := by
    decide
  refine run_reg ?_ cpu
  rw [targets]
  exact untouched pair hm

/-- The old context comes off the ISR stack and the new one from `CURRENT_THREAD_CONTEXT`. -/
theorem atRestore_eq (layout : TrapLayout) (cpu : Cpu)
    : (atRestore layout cpu).reg t5 = cpu.mem (slotAt (cpu.reg sp) 1)
      ∧ (atRestore layout cpu).reg t6 = cpu.mem layout.currentThreadContext
      ∧ (atRestore layout cpu).csr .mscratch = cpu.mem layout.currentThreadContext
      ∧ (atRestore layout cpu).csr .mepc
        = cpu.mem (slotAt (cpu.mem layout.currentThreadContext) 29)
      ∧ (atRestore layout cpu).mem = cpu.mem := by
  have old : 0 + (4 + cpu.reg sp) = slotAt (cpu.reg sp) 1 := by
    simp only [slotAt]
    bv_omega
  have symbol : 0 + layout.currentThreadContext = layout.currentThreadContext := zero_add _
  refine ⟨?_, ?_, ?_, ?_, (run_mem rfl _).trans (run_mem (by decide) _)⟩
  · rw [← old]
    rfl
  · rw [← symbol]
    rfl
  · rw [← symbol]
    rfl
  · rw [← symbol]
    rfl

theorem atRestore_callee (layout : TrapLayout) (cpu : Cpu) (hm : pair ∈ calleeSlots)
    : (atRestore layout cpu).reg pair.1 = cpu.reg pair.1 := by
  have targets : (enterUser ++ returnToThread layout).map Instr.target
      = [some t5, some sp, some t5, some sp, some t0, some t6, none, some t0, none, some t0,
        some t1, some t0, none, none, some a0] := rfl
  have untouched : ∀ pair ∈ calleeSlots,
      some pair.1 ∉ [some t5, some sp, some t5, some sp, some t0, some t6, none, some t0, none,
        some t0, some t1, some t0, none, none, some a0] := by
    decide
  rw [atRestore, ← run_append]
  refine run_reg ?_ cpu
  rw [targets]
  exact untouched pair hm

/-- The marker is popped into `t5`. -/
theorem enterUser_marker (cpu : Cpu) : (run enterUser cpu).reg t5 = cpu.mem (cpu.reg sp) := by
  have popped : (run enterUser cpu).reg t5 = cpu.mem (0 + cpu.reg sp) := rfl
  rw [popped, zero_add]

/-- The caller-saved registers come from the context in `t6`, and `t6` last. -/
theorem run_restoreCaller (cpu : Cpu)
    : (∀ pair ∈ callerSlots, (run restoreCaller cpu).reg pair.1
        = cpu.mem (slotAt (cpu.reg t6) pair.2))
      ∧ (run restoreCaller cpu).reg t6 = cpu.mem (slotAt (cpu.reg t6) 28)
      ∧ (∀ pair ∈ calleeSlots, (run restoreCaller cpu).reg pair.1 = cpu.reg pair.1)
      ∧ (run restoreCaller cpu).mem = cpu.mem
      ∧ (run restoreCaller cpu).csr = cpu.csr := by
  obtain ⟨mem, csr⟩ := run_loads t6 restoreSlots cpu
  have base : (run (loads t6 restoreSlots) cpu).reg t6 = cpu.reg t6 :=
    run_loads_other _ (by decide)
  rw [restoreCaller, run_append]
  refine ⟨fun pair hm => ?_, ?_, fun pair hm => ?_, ?_, ?_⟩
  · have ordered : ∀ pair ∈ callerSlots, pair ∈ restoreSlots ∧ pair.1 ≠ t6 := by decide
    obtain ⟨there, notT6⟩ := ordered pair hm
    rw [run_reg (by simpa [Instr.target] using notT6)]
    exact run_loads_reg _ (by decide) (by decide) (by decide) there
  · have last : (run [.lw t6 (28 * 4) t6] (run (loads t6 restoreSlots) cpu)).reg t6
        = (run (loads t6 restoreSlots) cpu).mem
            (slotAt ((run (loads t6 restoreSlots) cpu).reg t6) 28) := rfl
    rw [last, mem, base]
  · have absent : ∀ pair ∈ calleeSlots, pair.1 ∉ restoreSlots.map Prod.fst ∧ pair.1 ≠ t6 := by
      decide
    obtain ⟨notLoaded, notT6⟩ := absent pair hm
    rw [run_reg (by simpa [Instr.target] using notT6)]
    exact run_loads_other _ notLoaded
  · exact mem
  · exact csr

/-- The first thread runs with its context in `mscratch` and as the current one. -/
theorem startThread_eq (layout : TrapLayout) (context : Word) (cpu : Cpu)
    : (startThread layout context cpu).csr .mscratch = context
      ∧ (startThread layout context cpu).mem layout.currentThreadContext = context := by
  obtain ⟨mem, csr⟩ := run_loads t6 calleeSlots (run (startFirstThread layout) (cpu.set a0 context))
  have symbol : 0 + layout.currentThreadContext = layout.currentThreadContext := zero_add _
  rw [startThread, mret_mscratch, mret_mem, run_append, run_append]
  obtain ⟨_, _, _, mem', csr'⟩ :=
    run_restoreCaller (run restoreCallee (run (startFirstThread layout) (cpu.set a0 context)))
  rw [mem', csr', restoreCallee, mem, csr]
  refine ⟨rfl, ?_⟩
  have stored : (run (startFirstThread layout) (cpu.set a0 context)).mem
      = update cpu.mem (0 + layout.currentThreadContext) context := rfl
  rw [stored, symbol, update_self]

/-- A snapshot of the thread that was interrupted: its caller-saved registers are in its context,
the others still in the register file.
-/
structure Spread (cpu : Cpu) (context : Word) (saved : Snapshot) : Prop where
  callee : ∀ pair ∈ calleeSlots, cpu.reg pair.1 = saved.reg pair.1
  caller : ∀ pair ∈ callerSlots, cpu.mem (slotAt context pair.2) = saved.reg pair.1
  last : cpu.mem (slotAt context 28) = saved.reg t6
  pc : cpu.mem (slotAt context 29) = saved.pc

theorem reg_cases : ∀ r : Reg, r ≠ 0 → r ≠ 3 → r ≠ 4
    → r ∈ callerSlots.map Prod.fst ∨ r = t6 ∨ r ∈ calleeSlots.map Prod.fst := by
  decide

/-- The thread that was interrupted is resumed at once. -/
theorem Spread.restored (spread : Spread cpu context saved) (old : cpu.reg t5 = context)
    (new : cpu.reg t6 = context) (mepc : cpu.csr .mepc = saved.pc)
    : Restored (switchThread cpu) saved := by
  obtain ⟨caller, last, callee, _, csr⟩ := run_restoreCaller cpu
  have he : switchThread cpu = mret (run restoreCaller cpu) := by
    rw [switchThread, switchCode, if_pos (old.trans new.symm)]
  rw [he]
  refine ⟨fun r nonzero notGp notTp => ?_, (congrFun csr .mepc).trans mepc⟩
  rw [mret_reg]
  rcases reg_cases r nonzero notGp notTp with isCaller | rfl | isCallee
  · obtain ⟨pair, hm, rfl⟩ := List.mem_map.mp isCaller
    rw [caller pair hm, new, spread.caller pair hm]
  · rw [last, new, spread.last]
  · obtain ⟨pair, hm, rfl⟩ := List.mem_map.mp isCallee
    rw [callee pair hm, spread.callee pair hm]

theorem switchThread_frame (cpu : Cpu)
    : (switchThread cpu).csr .mscratch = cpu.csr .mscratch
      ∧ ∀ address, (∀ pair ∈ calleeSlots, address ≠ slotAt (cpu.reg t5) pair.2)
        → (switchThread cpu).mem address = cpu.mem address := by
  by_cases he : cpu.reg t5 = cpu.reg t6
  case pos =>
      obtain ⟨_, _, _, mem, csr⟩ := run_restoreCaller cpu
      rw [switchThread, switchCode, if_pos he]
      exact ⟨congrFun csr .mscratch, fun address _ => congrFun mem address⟩
  case neg =>
      obtain ⟨_, csr⟩ := run_saves t5 calleeSlots cpu
      obtain ⟨mem', csr'⟩ := run_loads t6 calleeSlots (run (saves t5 calleeSlots) cpu)
      obtain ⟨_, _, _, mem, csr''⟩ :=
        run_restoreCaller (run restoreCallee (run (saves t5 calleeSlots) cpu))
      rw [switchThread, switchCode, if_neg he, run_append, run_append]
      refine ⟨?_, fun address apart => ?_⟩
      · exact (congrFun csr'' .mscratch).trans (congrFun (csr'.trans csr) .mscratch)
      · refine (congrFun mem address).trans ((congrFun mem' address).trans ?_)
        exact run_saves_other cpu apart

section Switch

variable {saved : Snapshot} {next : Word}

theorem switchThread_eq (hne : cpu.reg t5 ≠ cpu.reg t6)
    : switchThread cpu
      = mret (run restoreCaller (run restoreCallee (run (saves t5 calleeSlots) cpu))) := by
  rw [switchThread, switchCode, if_neg hne, run_append, run_append]

/-- Another thread is resumed, and the snapshot of the old one is completed in its context. -/
theorem Spread.completes (spread : Spread cpu context saved) (old : cpu.reg t5 = context)
    (hne : cpu.reg t5 ≠ cpu.reg t6)
    : Holds (switchThread cpu).mem context saved := by
  have small : ∀ pair ∈ calleeSlots, pair.2 < 28 := by decide
  have distinct : ∀ pair ∈ calleeSlots, ∀ other ∈ callerSlots, other.2 ≠ pair.2 := by decide
  -- the words of the old context that are not written now
  have rest {slot : Nat} (fits : slot < 2 ^ 30) (other : ∀ pair ∈ calleeSlots, slot ≠ pair.2)
      : (switchThread cpu).mem (slotAt context slot) = cpu.mem (slotAt context slot) := by
    refine (switchThread_frame cpu).2 _ fun pair hm he => other pair hm ?_
    rw [old] at he
    exact slotAt_inj fits (by have := small pair hm; omega) he
  refine ⟨fun pair hm => ?_, ?_⟩
  · rcases List.mem_append.mp hm with isCaller | isOther
    · have fits := slot_lt hm
      rw [rest (by omega) fun other there => distinct other there pair isCaller]
      exact spread.caller pair isCaller
    · rcases List.mem_cons.mp isOther with rfl | isCallee
      · rw [rest (by decide) (by decide)]
        exact spread.last
      · rw [switchThread_eq hne, mret_mem, (run_restoreCaller _).2.2.2.1, restoreCallee,
          (run_loads _ _ _).1, ← old, run_saves_mem cpu (by decide) (by decide) isCallee]
        exact spread.callee pair isCallee
  · rw [rest (by decide) (by decide), spread.pc]

theorem Holds.restored (holds : Holds cpu.mem next saved) (new : cpu.reg t6 = next)
    (mepc : cpu.csr .mepc = saved.pc) (hne : cpu.reg t5 ≠ cpu.reg t6)
    (apart
      : ∀ slot slot', slot < 32 → slot' < 32 → slotAt (cpu.reg t5) slot ≠ slotAt next slot')
    : Restored (switchThread cpu) saved := by
  have small : ∀ pair ∈ calleeSlots, pair.2 < 28 := by decide
  obtain ⟨reg, csr⟩ := run_saves t5 calleeSlots cpu
  have stored {slot : Nat} (fits : slot < 32)
      : (run (saves t5 calleeSlots) cpu).mem (slotAt next slot) = cpu.mem (slotAt next slot) := by
    refine run_saves_other cpu fun pair hm he => ?_
    exact apart pair.2 slot (by have := small pair hm; omega) fits he.symm
  rw [switchThread_eq hne]
  generalize run (saves t5 calleeSlots) cpu = middle at reg csr stored
  obtain ⟨mem', csr'⟩ := run_loads t6 calleeSlots middle
  have loaded : (run restoreCallee middle).reg t6 = next := by
    rw [restoreCallee, run_loads_other _ (by decide), reg, new]
  have calleeLoaded {pair : Reg × Nat} (hm : pair ∈ calleeSlots)
      : (run restoreCallee middle).reg pair.1 = middle.mem (slotAt next pair.2) := by
    rw [restoreCallee, run_loads_reg _ (by decide) (by decide) (by decide) hm, reg, new]
  rw [← restoreCallee] at mem' csr'
  generalize run restoreCallee middle = loadedCpu at mem' csr' loaded calleeLoaded
  obtain ⟨caller, last, callee, _, csr''⟩ := run_restoreCaller loadedCpu
  refine ⟨fun r nonzero notGp notTp => ?_, ?_⟩
  · rw [mret_reg]
    rcases reg_cases r nonzero notGp notTp with isCaller | rfl | isCallee
    · obtain ⟨pair, hm, rfl⟩ := List.mem_map.mp isCaller
      have there : pair ∈ frameSlots := by simp [frameSlots, hm]
      rw [caller pair hm, loaded, mem', stored (by have := slot_lt there; omega)]
      exact holds.reg pair there
    · rw [last, loaded, mem', stored (by decide)]
      exact holds.reg (31, 28) (by decide)
    · obtain ⟨pair, hm, rfl⟩ := List.mem_map.mp isCallee
      have there : pair ∈ frameSlots := by simp [frameSlots, hm]
      rw [callee pair hm, calleeLoaded hm, stored (by have := slot_lt there; omega)]
      exact holds.reg pair there
  · rw [mret_pc, csr'', csr', csr, mepc]

end Switch

end Scars
