import Mathlib.Data.List.Basic
import Scars.Foundation.Runs

/-! The borrow flag that the four cell types share, next to the live guards.
One signed counter stands for both kinds of borrows; the drop of a guard tells them apart by its
sign.
-/

namespace Scars

open Runs

inductive BorrowPanic where
  | alreadyBorrowed
  | alreadyBorrowedMutably
  | overflow
  | unreachable
  deriving DecidableEq, Repr

namespace BorrowRef

-- a `BorrowFlag` is an `isize`: -1 for a mutable borrow, the number of shared ones otherwise

def newMutable (flag : Int) : Except BorrowPanic Int :=
  if flag ≠ 0 then .error .alreadyBorrowed else .ok (-1)

/-- `BorrowRef::new_immutable`, for an `isize` with this maximum. -/
def newImmutable (isizeMax : Nat) (flag : Int) : Except BorrowPanic Int :=
  if flag < 0 then
    .error .alreadyBorrowedMutably
  else if flag = isizeMax then
    .error .overflow
  else
    .ok (flag + 1)

def drop (flag : Int) : Except BorrowPanic Int :=
  if flag < 0 then
    -- release a mutable borrow
    .ok 0
  else if 0 < flag then
    -- release an immutable borrow
    .ok (flag - 1)
  else
    .error .unreachable

end BorrowRef

/-- A borrow that is tried: it is refused by a test of the flag, and taken otherwise. Nothing
stands for the error that the caller gets.
-/
def tryWith (refuses : Int → Bool) (take : Int → Except BorrowPanic Int) (flag : Int)
    : Except BorrowPanic (Option Int) :=
  if refuses flag then .ok none else (take flag).map some

/-- What a cell type does with its flag, and whether its mutable borrows need `&mut self`. -/
structure CellType where
  borrow : Int → Except BorrowPanic Int
  tryBorrow : Option (Int → Except BorrowPanic (Option Int))
  borrowMut : Int → Except BorrowPanic Int
  tryBorrowMut : Int → Except BorrowPanic (Option Int)
  mutableByUniqueReference : Bool

namespace RefCell

def isImmutablyBorrowed (flag : Int) : Bool := decide (0 < flag)

def isBorrowed (flag : Int) : Bool := flag != 0

def borrow (isizeMax : Nat) : Int → Except BorrowPanic Int :=
  BorrowRef.newImmutable isizeMax

/-- `RefCell::try_borrow`; its test is that of an immutable borrow. -/
def tryBorrow (isizeMax : Nat) : Int → Except BorrowPanic (Option Int) :=
  tryWith isImmutablyBorrowed (BorrowRef.newImmutable isizeMax)

def borrowMut : Int → Except BorrowPanic Int := BorrowRef.newMutable

def tryBorrowMut : Int → Except BorrowPanic (Option Int) :=
  tryWith isBorrowed BorrowRef.newMutable

end RefCell

namespace PinRefCell

def borrow (isizeMax : Nat) : Int → Except BorrowPanic Int :=
  BorrowRef.newImmutable isizeMax

def borrowMut : Int → Except BorrowPanic Int := BorrowRef.newMutable

def tryBorrowMut : Int → Except BorrowPanic (Option Int) :=
  tryWith (· != 0) BorrowRef.newMutable

end PinRefCell

namespace LockedRefCell

def borrow (isizeMax : Nat) : Int → Except BorrowPanic Int :=
  BorrowRef.newImmutable isizeMax

def tryBorrow (isizeMax : Nat) : Int → Except BorrowPanic (Option Int) :=
  tryWith (fun flag => decide (flag < 0)) (BorrowRef.newImmutable isizeMax)

def borrowMut : Int → Except BorrowPanic Int := BorrowRef.newMutable

def tryBorrowMut : Int → Except BorrowPanic (Option Int) :=
  tryWith (· != 0) BorrowRef.newMutable

end LockedRefCell

namespace LockedPinRefCell

def borrow (isizeMax : Nat) : Int → Except BorrowPanic Int :=
  BorrowRef.newImmutable isizeMax

def borrowMut : Int → Except BorrowPanic Int := BorrowRef.newMutable

def tryBorrowMut : Int → Except BorrowPanic (Option Int) :=
  tryWith (· != 0) BorrowRef.newMutable

end LockedPinRefCell

inductive CellKind where
  | refCell
  | pinRefCell
  | lockedRefCell
  | lockedPinRefCell
  deriving DecidableEq, Repr

/-- The functions of each cell type. The pinned ones have no `try_borrow`. -/
def CellKind.type (isizeMax : Nat) : CellKind → CellType
  | .refCell => {
      borrow := RefCell.borrow isizeMax
      tryBorrow := some (RefCell.tryBorrow isizeMax)
      borrowMut := RefCell.borrowMut
      tryBorrowMut := RefCell.tryBorrowMut
      mutableByUniqueReference := true }
  | .pinRefCell => {
      borrow := PinRefCell.borrow isizeMax
      tryBorrow := none
      borrowMut := PinRefCell.borrowMut
      tryBorrowMut := PinRefCell.tryBorrowMut
      mutableByUniqueReference := false }
  | .lockedRefCell => {
      borrow := LockedRefCell.borrow isizeMax
      tryBorrow := some (LockedRefCell.tryBorrow isizeMax)
      borrowMut := LockedRefCell.borrowMut
      tryBorrowMut := LockedRefCell.tryBorrowMut
      mutableByUniqueReference := false }
  | .lockedPinRefCell => {
      borrow := LockedPinRefCell.borrow isizeMax
      tryBorrow := none
      borrowMut := LockedPinRefCell.borrowMut
      tryBorrowMut := LockedPinRefCell.tryBorrowMut
      mutableByUniqueReference := false }

inductive BorrowKind where
  | shared
  | exclusive
  deriving DecidableEq, Repr

/-- A cell's flag, and the guards of it that are alive. -/
structure Borrowing where
  flag : Int := 0
  guards : List BorrowKind := []
  deriving DecidableEq, Repr

/-- The operations on a cell and, by their place among the live ones, on its guards. -/
inductive BorrowOp where
  | borrow
  | tryBorrow
  | borrowMut
  | tryBorrowMut
  | cloneGuard (index : Nat)
  | dropGuard (index : Nat)
  deriving DecidableEq, Repr

namespace Borrowing

variable {isizeMax : Nat} {kind : CellKind} {cell cell' : Borrowing}

/-- The cell with a new guard. -/
def withGuard (guard : BorrowKind) (flag : Int) (cell : Borrowing) : Borrowing :=
  ⟨flag, guard :: cell.guards⟩

/-- The answer of a tried borrow: whether there is a guard now. -/
def tried (guard : BorrowKind) (flag : Option Int) (cell : Borrowing) : Bool × Borrowing :=
  match flag with
  | none => (false, cell)
  | some flag => (true, cell.withGuard guard flag)

/-- An operation and whether it succeeded; only a tried borrow can fail without a panic. -/
def perform (isizeMax : Nat) (kind : CellKind) (cell : Borrowing)
    : BorrowOp → Except BorrowPanic (Bool × Borrowing)
  | .borrow => do
      let flag ← (kind.type isizeMax).borrow cell.flag
      return (true, cell.withGuard .shared flag)
  | .tryBorrow =>
      match (kind.type isizeMax).tryBorrow with
      | some tryBorrow => do
          let flag ← tryBorrow cell.flag
          return cell.tried .shared flag
      | none => .ok (false, cell)
  | .borrowMut => do
      let flag ← (kind.type isizeMax).borrowMut cell.flag
      return (true, cell.withGuard .exclusive flag)
  | .tryBorrowMut => do
      let flag ← (kind.type isizeMax).tryBorrowMut cell.flag
      return cell.tried .exclusive flag
  | .cloneGuard _ => do
      let flag ← BorrowRef.newImmutable isizeMax cell.flag
      return (true, cell.withGuard .shared flag)
  | .dropGuard index => do
      let flag ← BorrowRef.drop cell.flag
      return (true, ⟨flag, cell.guards.eraseIdx index⟩)

/-- What the types allow: a mutable borrow by `&mut self` excludes all other guards and uses while
it lives, a type without `try_borrow` is not asked for it, only shared guards are cloned, and only
live guards dropped.
-/
def Allows (isizeMax : Nat) (kind : CellKind) (cell : Borrowing) : BorrowOp → Prop
  | .borrow =>
      (kind.type isizeMax).mutableByUniqueReference = true → .exclusive ∉ cell.guards
  | .tryBorrow =>
      (kind.type isizeMax).tryBorrow.isSome = true
      ∧ ((kind.type isizeMax).mutableByUniqueReference = true → .exclusive ∉ cell.guards)
  | .borrowMut => (kind.type isizeMax).mutableByUniqueReference = true → cell.guards = []
  | .tryBorrowMut => (kind.type isizeMax).mutableByUniqueReference = true → cell.guards = []
  | .cloneGuard index => cell.guards[index]? = some .shared
  | .dropGuard index => index < cell.guards.length

end Borrowing

end Scars
