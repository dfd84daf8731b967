import Mathlib.Data.BitVec
import Mathlib.Data.List.Nodup
import Mathlib.Logic.Function.Basic

/-! Straight-line RV32 code: registers, a few control and status registers, a memory of aligned
words, and the instructions that save and restore them.
Code with branches or calls is cut there.
-/

namespace Rv32

open Function

abbrev Word := BitVec 32

/-- The integer registers `x0` to `x31`. -/
abbrev Reg := Fin 32

abbrev zero : Reg := 0
abbrev ra : Reg := 1
abbrev sp : Reg := 2
abbrev t0 : Reg := 5
abbrev t1 : Reg := 6
abbrev t2 : Reg := 7
abbrev s0 : Reg := 8
abbrev s1 : Reg := 9
abbrev a0 : Reg := 10
abbrev a1 : Reg := 11
abbrev a2 : Reg := 12
abbrev a3 : Reg := 13
abbrev a4 : Reg := 14
abbrev a5 : Reg := 15
abbrev a6 : Reg := 16
abbrev a7 : Reg := 17
abbrev s2 : Reg := 18
abbrev s3 : Reg := 19
abbrev s4 : Reg := 20
abbrev s5 : Reg := 21
abbrev s6 : Reg := 22
abbrev s7 : Reg := 23
abbrev s8 : Reg := 24
abbrev s9 : Reg := 25
abbrev s10 : Reg := 26
abbrev s11 : Reg := 27
abbrev t3 : Reg := 28
abbrev t4 : Reg := 29
abbrev t5 : Reg := 30
abbrev t6 : Reg := 31

inductive Csr where
  | mstatus
  | mepc
  | mtval
  | mcause
  | mscratch
  deriving DecidableEq, Repr

structure Cpu where
  file : Reg → Word
  csr : Csr → Word
  mem : Word → Word
  pc : Word

namespace Cpu

variable {cpu : Cpu} {r other : Reg} {value address : Word}

/-- What is read from a register; `x0` is hard-wired to zero. -/
def reg (cpu : Cpu) (r : Reg) : Word := if r = 0 then 0 else cpu.file r

def set (r : Reg) (value : Word) (cpu : Cpu) : Cpu :=
  { cpu with file := update cpu.file r value }

def setCsr (csr : Csr) (value : Word) (cpu : Cpu) : Cpu :=
  { cpu with csr := update cpu.csr csr value }

def store (address value : Word) (cpu : Cpu) : Cpu :=
  { cpu with mem := update cpu.mem address value }

@[simp] theorem reg_set_self (nonzero : r ≠ 0) : (cpu.set r value).reg r = value := by
  simp [reg, set, nonzero]

@[simp] theorem reg_set_of_ne (hne : other ≠ r)
    : (cpu.set r value).reg other = cpu.reg other := by
  simp [reg, set, hne]

@[simp] theorem set_mem : (cpu.set r value).mem = cpu.mem := rfl

@[simp] theorem set_csr : (cpu.set r value).csr = cpu.csr := rfl

@[simp] theorem store_reg : (cpu.store address value).reg = cpu.reg := rfl

@[simp] theorem store_csr : (cpu.store address value).csr = cpu.csr := rfl

@[simp] theorem store_mem
    : (cpu.store address value).mem = update cpu.mem address value :=
  rfl

end Cpu

/-- The base register comes last, as in `lw rd, offset(base)`. -/
inductive Instr where
  | lw (rd : Reg) (offset : Word) (base : Reg)
  | sw (rs : Reg) (offset : Word) (base : Reg)
  | addi (rd rs : Reg) (immediate : Word)
  | and (rd rs1 rs2 : Reg)
  | mv (rd rs : Reg)
  | li (rd : Reg) (immediate : Word)
  /-- The address of a symbol. -/
  | la (rd : Reg) (symbol : Word)
  | csrr (rd : Reg) (csr : Csr)
  | csrw (csr : Csr) (rs : Reg)
  | csrrw (rd : Reg) (csr : Csr) (rs : Reg)
  /-- `csrrc x0, csr, rs` -/
  | csrc (csr : Csr) (rs : Reg)
  /-- `csrrs x0, csr, rs` -/
  | csrs (csr : Csr) (rs : Reg)
  deriving DecidableEq, Repr

namespace Instr

def exec : Instr → Cpu → Cpu
  | lw rd offset base, cpu => cpu.set rd (cpu.mem (offset + cpu.reg base))
  | sw rs offset base, cpu => cpu.store (offset + cpu.reg base) (cpu.reg rs)
  | addi rd rs immediate, cpu => cpu.set rd (immediate + cpu.reg rs)
  | and rd rs1 rs2, cpu => cpu.set rd (cpu.reg rs1 &&& cpu.reg rs2)
  | mv rd rs, cpu => cpu.set rd (cpu.reg rs)
  | li rd immediate, cpu => cpu.set rd immediate
  | la rd symbol, cpu => cpu.set rd symbol
  | csrr rd csr, cpu => cpu.set rd (cpu.csr csr)
  | csrw csr rs, cpu => cpu.setCsr csr (cpu.reg rs)
  | csrrw rd csr rs, cpu => (cpu.setCsr csr (cpu.reg rs)).set rd (cpu.csr csr)
  | csrc csr rs, cpu => cpu.setCsr csr (cpu.csr csr &&& ~~~cpu.reg rs)
  | csrs csr rs, cpu => cpu.setCsr csr (cpu.csr csr ||| cpu.reg rs)

/-- The register that the instruction writes. -/
def target : Instr → Option Reg
  | lw rd _ _ => some rd
  | sw _ _ _ => none
  | addi rd _ _ => some rd
  | and rd _ _ => some rd
  | mv rd _ => some rd
  | li rd _ => some rd
  | la rd _ => some rd
  | csrr rd _ => some rd
  | csrw _ _ => none
  | csrrw rd _ _ => some rd
  | csrc _ _ => none
  | csrs _ _ => none

variable {instr : Instr}

theorem exec_reg {r : Reg} (untouched : instr.target ≠ some r) (cpu : Cpu)
    : (instr.exec cpu).reg r = cpu.reg r := by
  cases instr <;> first
    | rfl
    | exact Cpu.reg_set_of_ne fun he => untouched (congrArg some he.symm)

/-- The control and status register that the instruction writes. -/
def csrTarget : Instr → Option Csr
  | lw _ _ _ => none
  | sw _ _ _ => none
  | addi _ _ _ => none
  | and _ _ _ => none
  | mv _ _ => none
  | li _ _ => none
  | la _ _ => none
  | csrr _ _ => none
  | csrw csr _ => some csr
  | csrrw _ csr _ => some csr
  | csrc csr _ => some csr
  | csrs csr _ => some csr

theorem exec_csr {csr : Csr} (untouched : instr.csrTarget ≠ some csr) (cpu : Cpu)
    : (instr.exec cpu).csr csr = cpu.csr csr := by
  cases instr <;> first
    | rfl
    | exact update_of_ne (fun he => untouched (congrArg some he.symm)) _ _

def isStore : Instr → Bool
  | sw _ _ _ => true
  | _ => false

theorem exec_mem (loads : instr.isStore = false) (cpu : Cpu)
    : (instr.exec cpu).mem = cpu.mem := by
  cases instr <;> first
    | rfl
    | cases loads

end Instr

def run : List Instr → Cpu → Cpu
  | [], cpu => cpu
  | instr :: rest, cpu => run rest (instr.exec cpu)

theorem run_append (first second : List Instr) (cpu : Cpu)
    : run (first ++ second) cpu = run second (run first cpu) := by
  induction first generalizing cpu with
  | nil => rfl
  | cons instr rest ih => exact ih (instr.exec cpu)

variable {code : List Instr}

/-- Code that does not write a register leaves it alone, by induction on the code. -/
theorem run_reg {r : Reg} (untouched : some r ∉ code.map Instr.target) (cpu : Cpu)
    : (run code cpu).reg r = cpu.reg r := by
  induction code generalizing cpu with
  | nil => rfl
  | cons instr rest ih =>
      rw [List.map_cons, List.mem_cons, not_or] at untouched
      exact (ih untouched.2 (instr.exec cpu)).trans
        (Instr.exec_reg (fun he => untouched.1 he.symm) cpu)

theorem run_csr {csr : Csr} (untouched : some csr ∉ code.map Instr.csrTarget) (cpu : Cpu)
    : (run code cpu).csr csr = cpu.csr csr := by
  induction code generalizing cpu with
  | nil => rfl
  | cons instr rest ih =>
      rw [List.map_cons, List.mem_cons, not_or] at untouched
      exact (ih untouched.2 (instr.exec cpu)).trans
        (Instr.exec_csr (fun he => untouched.1 he.symm) cpu)

theorem run_mem (loads : code.all (fun instr => !instr.isStore) = true) (cpu : Cpu)
    : (run code cpu).mem = cpu.mem := by
  induction code generalizing cpu with
  | nil => rfl
  | cons instr rest ih =>
      rw [List.all_cons, Bool.and_eq_true, Bool.not_eq_true'] at loads
      exact (ih loads.2 (instr.exec cpu)).trans (Instr.exec_mem loads.1 cpu)

/-- The address of a word of a frame. -/
def slotAt (base : Word) (slot : Nat) : Word := BitVec.ofNat 32 (4 * slot) + base

theorem slotAt_inj {base : Word} {slot other : Nat} (small : slot < 2 ^ 30)
    (small' : other < 2 ^ 30) (he : slotAt base slot = slotAt base other)
    : slot = other := by
  have equal : BitVec.ofNat 32 (4 * slot) = BitVec.ofNat 32 (4 * other) := add_right_cancel he
  have equal := congrArg BitVec.toNat equal
  simp only [BitVec.toNat_ofNat] at equal
  omega

theorem slotAt_zero (base : Word) : slotAt base 0 = base := zero_add base

/-- Stores of registers to words of a frame. -/
def saves (base : Reg) (slots : List (Reg × Nat)) : List Instr :=
  slots.map fun slot => .sw slot.1 (BitVec.ofNat 32 (4 * slot.2)) base

/-- Loads of registers from words of a frame. -/
def loads (base : Reg) (slots : List (Reg × Nat)) : List Instr :=
  slots.map fun slot => .lw slot.1 (BitVec.ofNat 32 (4 * slot.2)) base

variable {base r : Reg} {slots : List (Reg × Nat)} {slot : Nat} {address : Word}

theorem run_saves_cons (head : Reg × Nat) (rest : List (Reg × Nat)) (cpu : Cpu)
    : run (saves base (head :: rest)) cpu
      = run (saves base rest) (cpu.store (slotAt (cpu.reg base) head.2) (cpu.reg head.1)) :=
  rfl

theorem run_saves (base : Reg) (slots : List (Reg × Nat)) (cpu : Cpu)
    : (run (saves base slots) cpu).reg = cpu.reg
      ∧ (run (saves base slots) cpu).csr = cpu.csr := by
  induction slots generalizing cpu with
  | nil => exact ⟨rfl, rfl⟩
  | cons head rest ih => exact ih _

theorem run_saves_other (cpu : Cpu) (apart : ∀ pair ∈ slots, address ≠ slotAt (cpu.reg base) pair.2)
    : (run (saves base slots) cpu).mem address = cpu.mem address := by
  induction slots generalizing cpu with
  | nil => rfl
  | cons head rest ih =>
      rw [run_saves_cons, ih]
      · exact update_of_ne (apart head List.mem_cons_self) _ _
      · exact fun pair hm => apart pair (List.mem_cons_of_mem _ hm)

/-- Each word of the frame holds its register, by induction on the stores. -/
theorem run_saves_mem (cpu : Cpu) (distinct : (slots.map Prod.snd).Nodup)
    (small : ∀ pair ∈ slots, pair.2 < 2 ^ 30) (hm : (r, slot) ∈ slots)
    : (run (saves base slots) cpu).mem (slotAt (cpu.reg base) slot) = cpu.reg r := by
  induction slots generalizing cpu with
  | nil => cases hm
  | cons head rest ih =>
      rw [List.map_cons, List.nodup_cons] at distinct
      rw [run_saves_cons]
      rcases List.mem_cons.mp hm with rfl | later
      · -- no later store goes to the same word
        rw [run_saves_other]
        · exact update_self _ _ _
        · intro pair also he
          have equal := slotAt_inj (small _ List.mem_cons_self)
            (small pair (List.mem_cons_of_mem _ also)) he
          exact distinct.1 (List.mem_map.mpr ⟨pair, also, equal.symm⟩)
      · exact ih _ distinct.2 (fun pair also => small pair (List.mem_cons_of_mem _ also)) later

theorem run_loads_cons (head : Reg × Nat) (rest : List (Reg × Nat)) (cpu : Cpu)
    : run (loads base (head :: rest)) cpu
      = run (loads base rest) (cpu.set head.1 (cpu.mem (slotAt (cpu.reg base) head.2))) :=
  rfl

theorem run_loads (base : Reg) (slots : List (Reg × Nat)) (cpu : Cpu)
    : (run (loads base slots) cpu).mem = cpu.mem
      ∧ (run (loads base slots) cpu).csr = cpu.csr := by
  induction slots generalizing cpu with
  | nil => exact ⟨rfl, rfl⟩
  | cons head rest ih => exact ih _

theorem run_loads_other (cpu : Cpu) (absent : r ∉ slots.map Prod.fst)
    : (run (loads base slots) cpu).reg r = cpu.reg r := by
  refine run_reg (fun hm => absent ?_) cpu
  simpa [loads, Instr.target] using hm

/-- Each register holds its word of the frame, by induction on the loads: none of them changes
the base.
-/
theorem run_loads_reg (cpu : Cpu) (distinct : (slots.map Prod.fst).Nodup)
    (nonzero : 0 ∉ slots.map Prod.fst) (kept : base ∉ slots.map Prod.fst)
    (hm : (r, slot) ∈ slots)
    : (run (loads base slots) cpu).reg r = cpu.mem (slotAt (cpu.reg base) slot) := by
  induction slots generalizing cpu with
  | nil => cases hm
  | cons head rest ih =>
      rw [List.map_cons, List.nodup_cons] at distinct
      rw [List.map_cons, List.mem_cons, not_or] at nonzero kept
      rw [run_loads_cons]
      rcases List.mem_cons.mp hm with rfl | later
      · rw [run_loads_other _ distinct.1]
        exact Cpu.reg_set_self fun he => nonzero.1 he.symm
      · rw [ih _ distinct.2 nonzero.2 kept.2 later, Cpu.reg_set_of_ne kept.1, Cpu.set_mem]

/-- The registers that the standard calling convention has a function preserve. -/
def calleeSaved : List Reg := [2, 3, 4, 8, 9, 18, 19, 20, 21, 22, 23, 24, 25, 26, 27]

/-- What a call leaves as it was: the registers that the convention has it preserve, and the
words that are not its own to write.
-/
structure Abides (kept : Word → Prop) (before after : Cpu) : Prop where
  reg : ∀ r ∈ calleeSaved, after.reg r = before.reg r
  mem : ∀ address, kept address → after.mem address = before.mem address

theorem Abides.refl {kept : Word → Prop} (cpu : Cpu) : Abides kept cpu cpu :=
  ⟨fun _ _ => rfl, fun _ _ => rfl⟩

end Rv32
