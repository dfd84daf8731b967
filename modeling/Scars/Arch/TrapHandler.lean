import Scars.Arch.ContextSwitch

/-! A trap of a thread from its entry to its return.
While the kernel handles it, the thread's snapshot is spread; then it is resumed at once, or its
context is completed and another thread resumed from its own.
-/

namespace Scars

open Rv32 Runs Function

variable {layout : TrapLayout} {due : Word → Option Snapshot} {context : Word} {saved : Snapshot}
  {cpu after : Cpu} {kept : Word → Prop}

/-- A trap between entry and return: the snapshot of the interrupted thread is spread, the other
contexts hold theirs, and the ISR stack tells which thread it was.
-/
structure Entered (layout : TrapLayout) (due : Word → Option Snapshot) (context : Word)
    (saved : Snapshot) (cpu : Cpu) : Prop where
  spread : Spread cpu context saved
  others : ∀ other snapshot, due other = some snapshot → other ≠ context
    → Holds cpu.mem other snapshot
  pointer : cpu.reg sp = layout.isrStackEnd - 8
  top : cpu.mem (slotAt (layout.isrStackEnd - 8) 0) = 0
  old : cpu.mem (slotAt (layout.isrStackEnd - 8) 1) = context

theorem calleeSlots_saved : ∀ pair ∈ calleeSlots, pair.1 ∈ calleeSaved := by decide

theorem callerSlots_lt : ∀ pair ∈ callerSlots, pair.2 < 28 := by decide

/-- A call that obeys the convention and leaves the contexts alone. -/
theorem Spread.abides (spread : Spread cpu context saved) (abides : Abides kept cpu after)
    (own : ∀ slot < 31, kept (slotAt context slot))
    : Spread after context saved where
  callee pair hm :=
    (abides.reg pair.1 (calleeSlots_saved pair hm)).trans (spread.callee pair hm)
  caller pair hm := by
    have small := callerSlots_lt pair hm
    exact (abides.mem _ (own pair.2 (by omega))).trans (spread.caller pair hm)
  last := (abides.mem _ (own 28 (by decide))).trans spread.last
  pc := (abides.mem _ (own 29 (by decide))).trans spread.pc

theorem Entered.abides (entered : Entered layout due context saved cpu)
    (abides : Abides kept cpu after) (own : ∀ slot < 31, kept (slotAt context slot))
    (others : ∀ other, (due other).isSome = true → ∀ slot < 31, kept (slotAt other slot))
    (stack : ∀ word < 2, kept (slotAt (layout.isrStackEnd - 8) word))
    : Entered layout due context saved after where
  spread := entered.spread.abides abides own
  others other snapshot isDue hne := by
    refine (entered.others other snapshot isDue hne).kept fun slot small => ?_
    exact abides.mem _ (others other (by simp [isDue]) slot small)
  pointer := (abides.reg sp (by decide)).trans entered.pointer
  top := (abides.mem _ (stack 0 (by decide))).trans entered.top
  old := (abides.mem _ (stack 1 (by decide))).trans entered.old

/-- A store to a word of the interrupted thread's context, after which the snapshot is another. -/
theorem Entered.store (entered : Entered layout due context saved cpu)
    (isContext : layout.isContext context = true)
    (contexts : ∀ other, (due other).isSome = true → layout.isContext other = true)
    {slot : Nat} (small : slot < 32) (value : Word) {changed : Snapshot}
    (spread : Spread (cpu.store (slotAt context slot) value) context changed)
    : Entered layout due context changed (cpu.store (slotAt context slot) value) where
  spread := spread
  others other snapshot isDue hne := by
    refine (entered.others other snapshot isDue hne).kept fun slot' small' => ?_
    refine update_of_ne (fun he => hne ?_) _ _
    exact layout.apart other context slot' slot (contexts other (by simp [isDue])) isContext
      (by omega) small he
  pointer := entered.pointer
  top := by
    refine (update_of_ne (fun he => ?_) _ _).trans entered.top
    exact layout.stack_apart context slot 0 isContext small (by decide) he.symm
  old := by
    refine (update_of_ne (fun he => ?_) _ _).trans entered.old
    exact layout.stack_apart context slot 1 isContext small (by decide) he.symm

theorem Spread.storePc (spread : Spread cpu context saved) (pc : Word)
    : Spread (cpu.store (slotAt context 29) pc) context ⟨saved.reg, pc⟩ where
  callee := spread.callee
  caller pair hm := by
    have small := callerSlots_lt pair hm
    refine (update_of_ne (fun he => ?_) _ _).trans (spread.caller pair hm)
    have equal := slotAt_inj (by omega) (by decide) he
    omega
  last := by
    refine (update_of_ne (fun he => ?_) _ _).trans spread.last
    exact absurd (slotAt_inj (by decide) (by decide) he) (by decide)
  pc := update_self _ _ _

theorem Spread.storeA3 (spread : Spread cpu context saved) {value : Word}
    (he : saved.reg a3 = value)
    : cpu.store (slotAt context 10) value = cpu := by
  have word : cpu.mem (slotAt context 10) = value :=
    (spread.caller (a3, 10) (by decide)).trans he
  rw [Cpu.store, ← word, update_eq_self]

/-- The snapshots after the interrupted thread got one. -/
abbrev dueWith (due : Word → Option Snapshot) (context : Word) (saved : Snapshot)
    : Word → Option Snapshot :=
  update due context (some saved)

/-- A thread was resumed: it has what it was due, and the contexts of the others hold theirs. -/
structure Resumed (layout : TrapLayout) (due : Word → Option Snapshot) (next : Word) (cpu : Cpu)
    : Prop where
  scratch : cpu.csr .mscratch = next
  current : cpu.mem layout.currentThreadContext = next
  restored : ∀ snapshot, due next = some snapshot → Restored cpu snapshot
  others : ∀ other snapshot, due other = some snapshot → other ≠ next → Holds cpu.mem other snapshot

/-- What `_restore_interrupt_threshold` leaves alone. -/
abbrev RestoreAbides (layout : TrapLayout) (due : Word → Option Snapshot) (cpu restored : Cpu)
    : Prop :=
  Abides
    (fun address => Hart.inContext due address ∨ address = layout.currentThreadContext)
    (atRestore layout cpu) restored

/-- What `_restore_interrupt_threshold` returns to, if it keeps `t5` and `t6`. -/
theorem Entered.restore {restored : Cpu} (entered : Entered layout due context saved cpu)
    (abides : RestoreAbides layout (dueWith due context saved) cpu restored)
    : Spread restored context saved
      ∧ (∀ other snapshot, due other = some snapshot → other ≠ context
        → Holds restored.mem other snapshot)
      ∧ restored.mem layout.currentThreadContext = cpu.mem layout.currentThreadContext := by
  obtain ⟨_, _, _, _, mem⟩ := atRestore_eq layout cpu
  have spread : Spread (atRestore layout cpu) context saved := by
    obtain ⟨callee, caller, last, pc⟩ := entered.spread
    rw [← mem] at caller last pc
    exact ⟨fun pair hm => (atRestore_callee layout cpu hm).trans (callee pair hm),
      caller, last, pc⟩
  refine ⟨spread.abides abides fun slot small => .inl ?_, fun other snapshot isDue hne => ?_,
    ?_⟩
  · exact ⟨context, slot, by simp [dueWith], small, rfl⟩
  · refine (entered.others other snapshot isDue hne).kept fun slot small => ?_
    rw [← mem]
    refine abides.mem _ (.inl ⟨other, slot, ?_, small, rfl⟩)
    rw [dueWith, update_of_ne hne, isDue]
    rfl
  · rw [← mem]
    exact abides.mem _ (.inr rfl)

/-- The interrupted thread is resumed or its snapshot is completed, and a thread that was waiting
for its turn is resumed from its context.
-/
theorem Entered.resumes {restored : Cpu} (entered : Entered layout due context saved cpu)
    (isContext : layout.isContext context = true)
    (contexts : ∀ other, (due other).isSome = true → layout.isContext other = true)
    (isNext : layout.isContext (cpu.mem layout.currentThreadContext) = true)
    (abides : RestoreAbides layout (dueWith due context saved) cpu restored)
    (csr : restored.csr = (atRestore layout cpu).csr)
    (keptOld : restored.reg t5 = (atRestore layout cpu).reg t5)
    (keptNew : restored.reg t6 = (atRestore layout cpu).reg t6)
    : Resumed layout (dueWith due context saved) (cpu.mem layout.currentThreadContext)
        (switchThread restored) := by
  obtain ⟨old, new, scratch, mepc, _⟩ := atRestore_eq layout cpu
  obtain ⟨spread, others, current⟩ := entered.restore abides
  rw [entered.pointer, entered.old] at old
  have pc := entered.spread.pc
  have pcOther := fun other snapshot isDue hne =>
    (entered.others other snapshot isDue hne).pc
  rw [← csr] at scratch mepc
  rw [← keptOld] at old
  rw [← keptNew] at new
  generalize cpu.mem layout.currentThreadContext = next at isNext new scratch mepc current
  obtain ⟨keptScratch, keptMem⟩ := switchThread_frame restored
  have small : ∀ pair ∈ calleeSlots, pair.2 < 28 := by decide
  -- the old context is the only one that is written
  have frame {other : Word} (hne : other ≠ context) (there : layout.isContext other = true)
      {slot : Nat} (fits : slot < 31)
      : (switchThread restored).mem (slotAt other slot) = restored.mem (slotAt other slot) := by
    refine keptMem _ fun pair hm he => hne ?_
    rw [old] at he
    have least := small pair hm
    exact layout.apart other context slot pair.2 there isContext (by omega) (by omega) he
  refine ⟨keptScratch.trans scratch, ?_, ?_, ?_⟩
  · refine (keptMem _ fun pair hm he => ?_).trans current
    rw [old] at he
    have least := small pair hm
    exact layout.current_apart context pair.2 isContext (by omega) he.symm
  · intro snapshot isDue
    by_cases again : next = context
    case pos =>
        subst again
        rw [dueWith, update_self, Option.some.injEq] at isDue
        subst isDue
        exact spread.restored old new (mepc.trans pc)
    case neg =>
        rw [dueWith, update_of_ne again] at isDue
        refine (others next snapshot isDue again).restored new ?_ ?_ ?_
        · exact mepc.trans (pcOther next snapshot isDue again)
        · rw [old, new]
          exact Ne.symm again
        · intro slot slot' small small' he
          rw [old] at he
          exact again (layout.apart context next slot slot' isContext isNext small small' he).symm
  · intro other snapshot isDue hne
    by_cases own : other = context
    case pos =>
        subst own
        rw [dueWith, update_self, Option.some.injEq] at isDue
        subst isDue
        refine spread.completes old ?_
        rw [old, new]
        exact hne
    case neg =>
        rw [dueWith, update_of_ne own] at isDue
        refine (others other snapshot isDue own).kept fun slot fits => ?_
        exact frame own (contexts other (by simp [isDue])) fits

end Scars
