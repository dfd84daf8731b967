import Scars.Priority

/-! The word that stores two priority statuses.
Each status is sixteen bits with an encoding of its own for an invalid one. Packing two of them
and reading them back loses nothing, so an atomic access to the word is one to the pair.
-/

namespace Scars

/-- The bit that tells interrupt from thread priorities. -/
def INTERRUPT_BIT : BitVec 16 := 1#16 <<< 14

def INVALID_PRIORITY : BitVec 16 := -1#16

namespace PriorityStatus

/-- `PriorityStatus::into_any`. -/
def intoAny : PriorityStatus → BitVec 16
  | .thread level => level.toBitVec.setWidth 16
  | .interrupt level => level.toBitVec.setWidth 16 ||| INTERRUPT_BIT
  | .invalid => INVALID_PRIORITY

/-- `PriorityStatus::from_any`. -/
def fromAny (value : BitVec 16) : PriorityStatus :=
  if value = INVALID_PRIORITY then
    .invalid
  else if value &&& INTERRUPT_BIT ≠ 0 then
    .interrupt ⟨(value &&& ~~~INTERRUPT_BIT).setWidth 8⟩
  else
    .thread ⟨value.setWidth 8⟩

end PriorityStatus

/-- `from_status_pair`. -/
def fromStatusPair (pair : PriorityStatus × PriorityStatus) : BitVec 32 :=
  pair.1.intoAny.setWidth 32 ||| (pair.2.intoAny.setWidth 32 <<< 16)

/-- `to_status_pair`. -/
def toStatusPair (value : BitVec 32) : PriorityStatus × PriorityStatus :=
  (.fromAny (value.setWidth 16), .fromAny ((value >>> 16).setWidth 16))

/-- A status survives its encoding. Witness: the interrupt bit is above every level, and no
level with or without it is the invalid encoding.
-/
theorem PriorityStatus.fromAny_intoAny (status : PriorityStatus)
    : fromAny status.intoAny = status := by
  cases status with
  | invalid => rfl
  | thread level =>
      obtain ⟨bits⟩ := level
      revert bits
      decide +kernel
  | interrupt level =>
      obtain ⟨bits⟩ := level
      revert bits
      decide +kernel

theorem setWidth_packed (low high : BitVec 16)
    : (low.setWidth 32 ||| (high.setWidth 32 <<< 16)).setWidth 16 = low := by
  ext index bound
  simp

theorem setWidth_packed_shifted (low high : BitVec 16)
    : ((low.setWidth 32 ||| (high.setWidth 32 <<< 16)) >>> 16).setWidth 16 = high := by
  ext index bound
  have inWord : 16 + index < 32 := by omega
  have small : index < 32 := by omega
  have notLow : ¬ 16 + index < 16 := by omega
  simp [inWord, small, notLow, BitVec.getLsbD_eq_getElem bound]

theorem toStatusPair_fromStatusPair (pair : PriorityStatus × PriorityStatus)
    : toStatusPair (fromStatusPair pair) = pair := by
  unfold toStatusPair fromStatusPair
  rw [setWidth_packed, setWidth_packed_shifted, PriorityStatus.fromAny_intoAny,
    PriorityStatus.fromAny_intoAny]

end Scars
