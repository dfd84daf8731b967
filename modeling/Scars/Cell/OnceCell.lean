import Scars.Foundation.Answers

/-! `LockedOnceCell` and `OnceLock`: a value behind a flag that only goes one way.
The flag says that a value was stored once; the storage may have lost it since, and reading it then
is a fault.
-/

namespace Scars

open Runs Answers

/-- The state of a `Once`. -/
inductive Once where
  | unstarted
  | started
  | completed
  deriving DecidableEq, Repr

def Once.isCompleted (once : Once) : Bool := once == .completed

/-- `LockedOnceCell<T, L>`; the storage is empty until it is written and again once its value has
been moved out.
-/
structure LockedOnceCell (T : Type) where
  once : Once := .unstarted
  value : Option T := none
  deriving DecidableEq, Repr

/-- A read of storage that holds no value. -/
inductive UninitialisedRead where
  | uninitialisedRead
  deriving DecidableEq, Repr

namespace LockedOnceCell

variable {T : Type}

/-- `assume_init_ref`, `assume_init_mut` and `assume_init`. -/
def assumeInit (cell : LockedOnceCell T) : Except UninitialisedRead T :=
  match cell.value with
  | some value => .ok value
  | none => .error .uninitialisedRead

def get (cell : LockedOnceCell T) : Except UninitialisedRead (Option T) :=
  if cell.once.isCompleted then cell.assumeInit.map some else .ok none

/-- `get_mut`, with what the caller makes of the value it refers to. -/
def getMut (change : T → T) (cell : LockedOnceCell T)
    : Except UninitialisedRead (Option T × LockedOnceCell T) :=
  if cell.once.isCompleted then do
    let value ← cell.assumeInit
    return (some value, { cell with value := some (change value) })
  else
    .ok (none, cell)

/-- `set`, with the argument that it returns in an error. -/
def set (value : T) (cell : LockedOnceCell T) : Option T × LockedOnceCell T :=
  -- the body of `call_once` runs between the two stores to its state
  if cell.once = .unstarted then
    let cell := { cell with once := .started }
    let cell := { cell with value := some value }
    (none, { cell with once := .completed })
  else
    (some value, cell)

/-- `get_or_init`, for a closure that returns this value. -/
def getOrInit (init : T) (cell : LockedOnceCell T)
    : Except UninitialisedRead (T × LockedOnceCell T) := do
  let cell := if cell.once.isCompleted then cell else (cell.set init).2
  let value ← cell.assumeInit
  return (value, cell)

/-- `take`, and `into_inner`, which has the same body. -/
def take (cell : LockedOnceCell T) : Except UninitialisedRead (Option T × LockedOnceCell T) :=
  if cell.once.isCompleted then do
    let value ← cell.assumeInit
    return (some value, { cell with value := none })
  else
    .ok (none, cell)

def intoInner (cell : LockedOnceCell T) : Except UninitialisedRead (Option T × LockedOnceCell T) :=
  cell.take

end LockedOnceCell

inductive OnceOp (T : Type) where
  | get
  | getMut (change : T → T)
  | set (value : T)
  | getOrInit (init : T)
  | take
  | intoInner

inductive OnceAnswer (T : Type) where
  | value (value : Option T)
  | stored (rejected : Option T)
  | reference (value : T)
  deriving DecidableEq, Repr

/-- What a cell that holds this value, or none, has to do. -/
def onceSpec {T : Type} (held : Option T) : OnceOp T → OnceAnswer T × Option T
  | .get => (.value held, held)
  | .getMut change => (.value held, held.map change)
  | .set value =>
      match held with
      | none => (.stored none, some value)
      | some _ => (.stored (some value), held)
  | .getOrInit init => (.reference (held.getD init), some (held.getD init))
  | .take => (.value held, none)
  | .intoInner => (.value held, none)

namespace LockedOnceCell

variable {T : Type}

def perform (cell : LockedOnceCell T)
    : OnceOp T → Except UninitialisedRead (OnceAnswer T × LockedOnceCell T)
  | .get => cell.get.map fun value => (.value value, cell)
  | .getMut change => (cell.getMut change).map fun (value, cell) => (.value value, cell)
  | .set value =>
      let (rejected, cell) := cell.set value
      .ok (.stored rejected, cell)
  | .getOrInit init => (cell.getOrInit init).map fun (value, cell) => (.reference value, cell)
  | .take => cell.take.map fun (value, cell) => (.value value, cell)
  | .intoInner => cell.intoInner.map fun (value, cell) => (.value value, cell)

/-- A cell that is used as its flag says. -/
def holding : Option T → LockedOnceCell T
  | none => ⟨.unstarted, none⟩
  | some value => ⟨.completed, some value⟩

/-- A cell whose value was taken out while its flag stays completed. -/
def emptied : LockedOnceCell T := ⟨.completed, none⟩

/-- The operation moves a value out of the cell. -/
def takesOut (held : Option T) : OnceOp T → Bool
  | .take => held.isSome
  | .intoInner => held.isSome
  | _ => false

/-- While the flag is right, an operation does what it has to, and leaves the flag right unless
it takes the value out.
-/
theorem perform_holding (held : Option T) (op : OnceOp T)
    : (holding held).perform op
      = .ok ((onceSpec held op).1,
          if takesOut held op then emptied else holding (onceSpec held op).2) := by
  cases held <;> cases op <;> rfl

/-- Nothing that is done with an emptied cell answers as it has to: it reads the storage without
a value, or refuses to store one.
-/
theorem perform_emptied (op : OnceOp T) (cell : LockedOnceCell T)
    : emptied.perform op ≠ .ok ((onceSpec none op).1, cell) := by
  cases op <;> nofun

/-- No operation follows one that takes a value out. None can follow `into_inner`, which
consumes the cell.
-/
def EndsWithTake (held : Option T) : List (OnceOp T) → Prop
  | [] => True
  | op :: later =>
      if takesOut held op then later = [] else EndsWithTake (onceSpec held op).2 later

theorem onceSpec_of_takesOut {held : Option T} {op : OnceOp T} (takes : takesOut held op = true)
    : (onceSpec held op).2 = none := by
  cases op <;> first | rfl | cases takes

/-- The cell answers as it has to from here, and ends with the value that it then holds. -/
abbrev Right (cell : LockedOnceCell T) (held : Option T) (ops : List (OnceOp T)) : Prop :=
  Agrees perform onceSpec (fun cell held => cell.value = held) cell held ops

/-- An emptied cell answers as it has to only if nothing more is asked of it. -/
theorem right_emptied_iff (ops : List (OnceOp T)) : Right emptied none ops ↔ ops = [] := by
  constructor
  · intro right
    cases ops with
    | nil => rfl
    | cons op later => exact absurd right (not_agrees_of_first (perform_emptied op))
  · rintro rfl
    exact ⟨emptied, rfl, rfl⟩

/-- From a cell whose flag is right, all answers are right exactly when nothing follows a take.
Witness: induction on the operations; after a take the next answer is wrong.
-/
theorem right_holding_iff (held : Option T) (ops : List (OnceOp T))
    : Right (holding held) held ops ↔ EndsWithTake held ops := by
  induction ops generalizing held with
  | nil =>
      refine ⟨fun _ => trivial, fun _ => ⟨holding held, rfl, ?_⟩⟩
      cases held <;> rfl
  | cons op later ih =>
      rw [Right, agrees_cons_iff (perform_holding held op), EndsWithTake]
      split
      next takes =>
        rw [onceSpec_of_takesOut takes]
        exact right_emptied_iff later
      next => exact ih _

end LockedOnceCell

/-- `OnceLock<T, L>`. -/
structure OnceLock (T : Type) where
  cell : LockedOnceCell T := {}

/-- Every function of `OnceLock` is that of its cell; `set` and `get_or_init` run inside of the
lock's section, which gives them the key.
-/
def OnceLock.perform {T : Type} (lock : OnceLock T) (op : OnceOp T)
    : Except UninitialisedRead (OnceAnswer T × OnceLock T) :=
  (lock.cell.perform op).map fun (answer, cell) => (answer, ⟨cell⟩)

/-- A new cell, and a lock over one, answers every operation by the value it holds, and ends with
that value in its storage, exactly when nothing follows a take that took a value out.
-/
theorem once_reads_held_value_iff {T : Type} (ops : List (OnceOp T))
    : let (expected, held) := specified onceSpec none ops
      ((∃ cell : LockedOnceCell T,
          answers LockedOnceCell.perform {} ops = .ok (expected, cell) ∧ cell.value = held)
        ↔ LockedOnceCell.EndsWithTake none ops)
      ∧ ((∃ lock : OnceLock T,
          answers OnceLock.perform {} ops = .ok (expected, lock) ∧ lock.cell.value = held)
        ↔ LockedOnceCell.EndsWithTake none ops) := by
  have cells := LockedOnceCell.right_holding_iff none ops
  refine ⟨cells, ?_⟩
  have wrapped : answers OnceLock.perform ({} : OnceLock T) ops
      = (answers LockedOnceCell.perform {} ops).map fun result => (result.1, ⟨result.2⟩) :=
    answers_wrap OnceLock.mk (fun _ _ => rfl) {} ops
  rw [wrapped, ← cells]
  constructor
  · rintro ⟨lock, ran, he⟩
    obtain ⟨⟨all, cell⟩, ranCell, returned⟩ := map_ok.mp ran
    cases returned
    exact ⟨cell, ranCell, he⟩
  · rintro ⟨cell, ran, he⟩
    exact ⟨⟨cell⟩, map_ok.mpr ⟨_, ran, rfl⟩, he⟩

/-- After a take the cell still says that it holds a value: reading it reads the empty storage,
and a new value is refused.
-/
theorem once_emptied_by_take
    : answers LockedOnceCell.perform ({} : LockedOnceCell Nat) [.set 1, .take, .get]
        = .error .uninitialisedRead
      ∧ (answers LockedOnceCell.perform ({} : LockedOnceCell Nat)
          [.set 1, .take, .set 2]).map (·.1)
        = .ok [.stored none, .value (some 1), .stored (some 2)] :=
  ⟨rfl, rfl⟩

end Scars
