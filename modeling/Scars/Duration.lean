import Mathlib.Algebra.Group.Nat.Defs
import Scars.Foundation.Runs

/-! `Duration`, which counts ticks of the clock.
Units are quotients of the tick frequency rounded down, so conversions are accurate exactly for
whole megahertz that are not too large for the product with nanoseconds.
-/

namespace Scars

open Runs

inductive ArithmeticPanic where
  | overflow
  | divisionByZero
  deriving DecidableEq, Repr

namespace U64

/-- `left * right`, which wraps in builds without overflow checks. -/
def mul (checks : Bool) (left right : UInt64) : Except ArithmeticPanic UInt64 :=
  if checks ∧ 2 ^ 64 ≤ left.toNat * right.toNat then .error .overflow else .ok (left * right)

/-- `left + right`, which wraps in builds without overflow checks. -/
def add (checks : Bool) (left right : UInt64) : Except ArithmeticPanic UInt64 :=
  if checks ∧ 2 ^ 64 ≤ left.toNat + right.toNat then .error .overflow else .ok (left + right)

def div (left right : UInt64) : Except ArithmeticPanic UInt64 :=
  if right = 0 then .error .divisionByZero else .ok (left / right)

variable {left right : UInt64}

theorem mul_ok (checks : Bool) (fits : left.toNat * right.toNat < 2 ^ 64)
    : ∃ product,
        mul checks left right = .ok product ∧ product.toNat = left.toNat * right.toNat := by
  refine ⟨left * right, if_neg (by omega), ?_⟩
  rw [UInt64.toNat_mul, Nat.mod_eq_of_lt fits]

/-- A product that does not fit is refused, or comes out too small by `2 ^ 64` at least. -/
theorem mul_overflow {checks : Bool} {product : UInt64}
    (overflows : 2 ^ 64 ≤ left.toNat * right.toNat)
    (multiplied : mul checks left right = .ok product)
    : product.toNat + 2 ^ 64 ≤ left.toNat * right.toNat := by
  obtain ⟨_, he⟩ := refused_ok.mp multiplied
  rw [← Except.ok.inj he, UInt64.toNat_mul]
  have split := Nat.div_add_mod (left.toNat * right.toNat) (2 ^ 64)
  have quotient : 1 ≤ left.toNat * right.toNat / 2 ^ 64 :=
    (Nat.one_le_div_iff (by decide)).mpr overflows
  omega

theorem add_ok (checks : Bool) (fits : left.toNat + right.toNat < 2 ^ 64)
    : ∃ sum, add checks left right = .ok sum ∧ sum.toNat = left.toNat + right.toNat := by
  refine ⟨left + right, if_neg (by omega), ?_⟩
  rw [UInt64.toNat_add, Nat.mod_eq_of_lt fits]

theorem div_ok (nonzero : right ≠ 0) : div left right = .ok (left / right) := if_neg nonzero

end U64

structure Duration where
  ticks : UInt64
  deriving DecidableEq, Repr

namespace Duration

-- `TICK_FREQ_HZ` is the parameter `tickFreqHz`

def SECOND (tickFreqHz : UInt64) : Duration := ⟨tickFreqHz⟩

def MILLISECOND (tickFreqHz : UInt64) : Duration := ⟨tickFreqHz / 1000⟩

def MICROSECOND (tickFreqHz : UInt64) : Duration := ⟨tickFreqHz / 1000000⟩

section Conversions

variable (checks : Bool) (tickFreqHz : UInt64)

def new (secs : UInt64) (nanos : UInt32) : Except ArithmeticPanic Duration := do
  let whole ← U64.mul checks (SECOND tickFreqHz).ticks secs
  let product ← U64.mul checks (MICROSECOND tickFreqHz).ticks nanos.toUInt64
  let ticks ← U64.add checks whole (product / 1000)
  return ⟨ticks⟩

/-- A number of units. -/
def fromUnits (unit : Duration) (count : UInt64) : Except ArithmeticPanic Duration :=
  (U64.mul checks unit.ticks count).map Duration.mk

def fromSecs : UInt64 → Except ArithmeticPanic Duration := fromUnits checks (SECOND tickFreqHz)

def fromMillis : UInt64 → Except ArithmeticPanic Duration :=
  fromUnits checks (MILLISECOND tickFreqHz)

def fromMicros : UInt64 → Except ArithmeticPanic Duration :=
  fromUnits checks (MICROSECOND tickFreqHz)

/-- The number of whole units. -/
def asUnits (unit duration : Duration) : Except ArithmeticPanic UInt64 :=
  U64.div duration.ticks unit.ticks

def asSecs : Duration → Except ArithmeticPanic UInt64 := asUnits (SECOND tickFreqHz)

def asMillis : Duration → Except ArithmeticPanic UInt64 := asUnits (MILLISECOND tickFreqHz)

def asMicros : Duration → Except ArithmeticPanic UInt64 := asUnits (MICROSECOND tickFreqHz)

end Conversions

/-- The duration is the exact number of ticks, a fraction, rounded down to within one tick. -/
def RoundsDown (exact denominator : Nat) (duration : Duration) : Prop :=
  duration.ticks.toNat * denominator ≤ exact
  ∧ exact ≤ (duration.ticks.toNat + 1) * denominator

/-- All counts of a unit are converted with their exact number of ticks rounded down, as far as
that fits. There are `perSecond` units in a second.
-/
def ConvertsUnits (tickFreqHz : UInt64) (perSecond : Nat)
    (convert : UInt64 → Except ArithmeticPanic Duration)
    : Prop :=
  ∀ count : UInt64,
    tickFreqHz.toNat * count.toNat < 2 ^ 64 * perSecond
    → ∃ duration,
        convert count = .ok duration
        ∧ RoundsDown (tickFreqHz.toNat * count.toNat) perSecond duration

/-- Counts of a unit of a tick or more are converted and back, with an error of one at most. -/
def ConvertsBack (tickFreqHz : UInt64) (perSecond : Nat)
    (convert : UInt64 → Except ArithmeticPanic Duration)
    (back : Duration → Except ArithmeticPanic UInt64)
    : Prop :=
  perSecond ≤ tickFreqHz.toNat
  → ∀ count : UInt64,
      tickFreqHz.toNat * count.toNat < 2 ^ 64 * perSecond
      → ∃ result,
          (convert count >>= back) = .ok result
          ∧ result.toNat ≤ count.toNat + 1
          ∧ count.toNat ≤ result.toNat + 1

/-- The conversions are accurate to one tick, and defined. -/
structure Accurate (checks : Bool) (tickFreqHz : UInt64) : Prop where
  new
    : ∀ (secs : UInt64) (nanos : UInt32),
        tickFreqHz.toNat * (secs.toNat * 10 ^ 9 + nanos.toNat) < 2 ^ 64 * 10 ^ 9
        → ∃ duration,
            Duration.new checks tickFreqHz secs nanos = .ok duration
            ∧ RoundsDown (tickFreqHz.toNat * (secs.toNat * 10 ^ 9 + nanos.toNat)) (10 ^ 9) duration
  fromMillis : ConvertsUnits tickFreqHz 1000 (Duration.fromMillis checks tickFreqHz)
  fromMicros : ConvertsUnits tickFreqHz (10 ^ 6) (Duration.fromMicros checks tickFreqHz)
  asMillis : ∀ duration, ∃ millis, Duration.asMillis tickFreqHz duration = .ok millis
  asMicros : ∀ duration, ∃ micros, Duration.asMicros tickFreqHz duration = .ok micros
  millis
    : ConvertsBack tickFreqHz 1000 (Duration.fromMillis checks tickFreqHz)
        (Duration.asMillis tickFreqHz)
  micros
    : ConvertsBack tickFreqHz (10 ^ 6) (Duration.fromMicros checks tickFreqHz)
        (Duration.asMicros tickFreqHz)

variable {checks : Bool} {tickFreqHz : UInt64} {perSecond : Nat} {unit : Duration}

theorem toNat_MILLISECOND : (MILLISECOND tickFreqHz).ticks.toNat = tickFreqHz.toNat / 1000 :=
  UInt64.toNat_div _ _

theorem toNat_MICROSECOND : (MICROSECOND tickFreqHz).ticks.toNat = tickFreqHz.toNat / 10 ^ 6 :=
  UInt64.toNat_div _ _

theorem fromUnits_ok (checks : Bool) {count : UInt64}
    (fits : unit.ticks.toNat * count.toNat < 2 ^ 64)
    : ∃ duration,
        fromUnits checks unit count = .ok duration
        ∧ duration.ticks.toNat = unit.ticks.toNat * count.toNat := by
  obtain ⟨product, multiplied, he⟩ := U64.mul_ok checks fits
  exact ⟨⟨product⟩, map_ok.mpr ⟨product, multiplied, rfl⟩, he⟩

section Units

variable (isUnit : unit.ticks.toNat = tickFreqHz.toNat / perSecond)

include isUnit

theorem units_fit {count : Nat} (fits : tickFreqHz.toNat * count < 2 ^ 64 * perSecond)
    : unit.ticks.toNat * count < 2 ^ 64 := by
  rw [isUnit]
  refine Nat.lt_of_mul_lt_mul_left (a := perSecond) ?_
  calc perSecond * (tickFreqHz.toNat / perSecond * count)
      = perSecond * (tickFreqHz.toNat / perSecond) * count := (Nat.mul_assoc _ _ _).symm
    _ ≤ tickFreqHz.toNat * count := Nat.mul_le_mul_right _ (Nat.mul_div_le _ _)
    _ < perSecond * 2 ^ 64 := by rwa [Nat.mul_comm perSecond]

theorem convertsUnits_of_dvd (divides : perSecond ∣ tickFreqHz.toNat)
    : ConvertsUnits tickFreqHz perSecond (fromUnits checks unit) := by
  intro count fits
  obtain ⟨duration, converted, ticks⟩ := fromUnits_ok checks (units_fit isUnit fits)
  have exact : duration.ticks.toNat * perSecond = tickFreqHz.toNat * count.toNat := by
    rw [ticks, isUnit, Nat.mul_right_comm, Nat.div_mul_cancel divides]
  refine ⟨duration, converted, Nat.le_of_eq exact, ?_⟩
  rw [← exact]
  exact Nat.mul_le_mul_right _ (Nat.le_succ _)

/-- A unit of a tick or more counts back what it counted. -/
theorem convertsBack_units (some : 0 < perSecond)
    : ConvertsBack tickFreqHz perSecond (fromUnits checks unit) (asUnits unit) := by
  intro least count fits
  obtain ⟨duration, converted, ticks⟩ := fromUnits_ok checks (units_fit isUnit fits)
  have positive : 0 < unit.ticks.toNat := by
    rw [isUnit]
    exact Nat.div_pos least some
  have nonzero : unit.ticks ≠ 0 := by
    rintro zero
    rw [zero] at positive
    exact absurd positive (by decide)
  have back : (duration.ticks / unit.ticks).toNat = count.toNat := by
    rw [UInt64.toNat_div, ticks, Nat.mul_div_cancel_left _ positive]
  refine ⟨_, bind_ok.mpr ⟨duration, converted, U64.div_ok nonzero⟩, ?_, ?_⟩ <;> omega

end Units

theorem asUnits_defined_iff
    : (∀ duration, ∃ count, asUnits unit duration = .ok count) ↔ 0 < unit.ticks.toNat := by
  constructor
  · intro defined
    obtain ⟨count, counted⟩ := defined ⟨0⟩
    refine Nat.pos_of_ne_zero fun zero => ?_
    have isZero : unit.ticks = 0 := UInt64.toNat_inj.mp zero
    rw [asUnits, U64.div, if_pos isZero] at counted
    cases counted
  · intro positive duration
    refine ⟨_, U64.div_ok fun isZero => ?_⟩
    rw [isZero] at positive
    exact absurd positive (by decide)

/-- `new` rounds down if the frequency is a whole number of megahertz, unless that is too much
for the product with the nanoseconds.
-/
theorem new_roundsDown {megahertz : Nat} (whole : tickFreqHz.toNat = 10 ^ 6 * megahertz)
    (small : megahertz ≤ 2 ^ 32 + 1) (secs : UInt64) (nanos : UInt32)
    (fits : tickFreqHz.toNat * (secs.toNat * 10 ^ 9 + nanos.toNat) < 2 ^ 64 * 10 ^ 9)
    : ∃ duration,
        new checks tickFreqHz secs nanos = .ok duration
        ∧ RoundsDown (tickFreqHz.toNat * (secs.toNat * 10 ^ 9 + nanos.toNat)) (10 ^ 9)
            duration := by
  have micro : (MICROSECOND tickFreqHz).ticks.toNat = megahertz := by
    rw [toNat_MICROSECOND, whole, Nat.mul_div_cancel_left _ (by decide)]
  have isNanos : nanos.toUInt64.toNat = nanos.toNat := UInt32.toNat_toUInt64 nanos
  have bound : megahertz * nanos.toNat ≤ (2 ^ 32 + 1) * (2 ^ 32 - 1) := by
    have least := nanos.toNat_lt
    exact Nat.mul_le_mul small (by omega)
  have exact : tickFreqHz.toNat * (secs.toNat * 10 ^ 9 + nanos.toNat)
      = tickFreqHz.toNat * secs.toNat * 10 ^ 9 + 10 ^ 6 * (megahertz * nanos.toNat) := by
    rw [Nat.mul_add, ← Nat.mul_assoc, ← Nat.mul_assoc, ← whole]
  rw [exact] at fits ⊢
  obtain ⟨first, multiplied, firstEq⟩
      : ∃ first, U64.mul checks (SECOND tickFreqHz).ticks secs = .ok first
        ∧ first.toNat = tickFreqHz.toNat * secs.toNat :=
    U64.mul_ok checks (by show tickFreqHz.toNat * secs.toNat < 2 ^ 64; omega)
  obtain ⟨product, multiplied', productEq⟩
      : ∃ product, U64.mul checks (MICROSECOND tickFreqHz).ticks nanos.toUInt64 = .ok product
        ∧ product.toNat = megahertz * nanos.toNat := by
    rw [← micro, ← isNanos] at bound ⊢
    exact U64.mul_ok checks (by omega)
  have rest : (product / 1000).toNat = megahertz * nanos.toNat / 1000 := by
    rw [UInt64.toNat_div, productEq]
    rfl
  have sum : first.toNat + (product / 1000).toNat < 2 ^ 64 := by
    rw [firstEq, rest]
    omega
  obtain ⟨ticks, added, ticksEq⟩ := U64.add_ok checks sum
  refine ⟨⟨ticks⟩, ?_, ?_⟩
  · exact bind_ok.mpr
      ⟨first, multiplied, bind_ok.mpr ⟨product, multiplied', bind_ok.mpr ⟨ticks, added, rfl⟩⟩⟩
  · rw [firstEq, rest] at ticksEq
    simp only [RoundsDown, ticksEq]
    omega

/-- Where the product with the nanoseconds overflows, `new` is too small or panics. -/
theorem new_not_roundsDown (nanos : UInt32)
    (overflows : 2 ^ 64 ≤ tickFreqHz.toNat / 10 ^ 6 * nanos.toNat)
    : ¬ ∃ duration,
        new checks tickFreqHz 0 nanos = .ok duration
        ∧ RoundsDown (tickFreqHz.toNat * (0 * 10 ^ 9 + nanos.toNat)) (10 ^ 9) duration := by
  rintro ⟨duration, made, -, above⟩
  obtain ⟨first, multiplied, rest⟩ := bind_ok.mp made
  obtain ⟨product, multiplied', rest⟩ := bind_ok.mp rest
  obtain ⟨ticks, added, rfl⟩ := bind_pure_ok.mp rest
  have none : first.toNat = 0 := by
    have nothing : (SECOND tickFreqHz).ticks.toNat * (0 : UInt64).toNat = 0 := Nat.mul_zero _
    obtain ⟨zero, he, isZero⟩ := U64.mul_ok checks (by rw [nothing]; decide)
    rw [← Except.ok.inj (he.symm.trans multiplied), isZero, nothing]
  have lost : product.toNat + 2 ^ 64 ≤ tickFreqHz.toNat / 10 ^ 6 * nanos.toNat := by
    rw [← toNat_MICROSECOND, ← UInt32.toNat_toUInt64 nanos] at overflows ⊢
    exact U64.mul_overflow overflows multiplied'
  have rest : (product / 1000).toNat = product.toNat / 1000 := UInt64.toNat_div _ _
  have sum : first.toNat + (product / 1000).toNat < 2 ^ 64 := by
    have least := product.toNat_lt
    omega
  have total : ticks.toNat = product.toNat / 1000 := by
    obtain ⟨other, he, isSum⟩ := U64.add_ok checks sum
    rw [← Except.ok.inj (he.symm.trans added), isSum, none, rest, Nat.zero_add]
  have below : 10 ^ 6 * (tickFreqHz.toNat / 10 ^ 6 * nanos.toNat)
      ≤ tickFreqHz.toNat * nanos.toNat := by
    rw [← Nat.mul_assoc]
    exact Nat.mul_le_mul_right _ (Nat.mul_div_le _ _)
  rw [Nat.zero_mul, Nat.zero_add, total] at above
  omega

theorem Accurate.small (accurate : Accurate checks tickFreqHz)
    : tickFreqHz.toNat / 10 ^ 6 ≤ 2 ^ 32 + 1 := by
  refine Nat.le_of_not_lt fun large => ?_
  have least := tickFreqHz.toNat_lt
  by_cases huge : tickFreqHz.toNat / 10 ^ 6 < 2 ^ 35
  case pos =>
      -- more than four seconds of nanoseconds
      have nanos : (4294967295 : UInt32).toNat = 4294967295 := by decide
      refine new_not_roundsDown 4294967295 ?_ (accurate.new 0 4294967295 ?_)
      · rw [nanos]
        omega
      · rw [nanos]
        show tickFreqHz.toNat * (0 * 10 ^ 9 + 4294967295) < 2 ^ 64 * 10 ^ 9
        omega
  case neg =>
      have nanos : (999999999 : UInt32).toNat = 999999999 := by decide
      refine new_not_roundsDown 999999999 ?_ (accurate.new 0 999999999 ?_)
      · rw [nanos]
        omega
      · rw [nanos]
        show tickFreqHz.toNat * (0 * 10 ^ 9 + 999999999) < 2 ^ 64 * 10 ^ 9
        omega

theorem Accurate.dvd (accurate : Accurate checks tickFreqHz) : 10 ^ 6 ∣ tickFreqHz.toNat := by
  have small := accurate.small
  have count : (1000001 : UInt64).toNat = 1000001 := by decide
  have fits : tickFreqHz.toNat * (1000001 : UInt64).toNat < 2 ^ 64 * 10 ^ 6 := by
    rw [count]
    omega
  obtain ⟨duration, converted, -, above⟩ := accurate.fromMicros 1000001 fits
  obtain ⟨other, he, ticks⟩ := fromUnits_ok checks (units_fit toNat_MICROSECOND fits)
  obtain rfl : other = duration := Except.ok.inj (he.symm.trans converted)
  rw [ticks, toNat_MICROSECOND, count] at above
  omega

/-- For every tick frequency, with and without overflow checks: all conversions are accurate to one
tick, defined and inverted to within one unit exactly if it is a positive whole number of
megahertz, `2 ^ 32 + 1` at most. Witness: otherwise `from_micros` loses a tick after `10 ^ 6 + 1`
microseconds.
-/
theorem duration_accurate_iff (checks : Bool) (tickFreqHz : UInt64)
    : Accurate checks tickFreqHz
      ↔ 10 ^ 6 ≤ tickFreqHz.toNat
        ∧ 10 ^ 6 ∣ tickFreqHz.toNat
        ∧ tickFreqHz.toNat / 10 ^ 6 ≤ 2 ^ 32 + 1 := by
  constructor
  · intro accurate
    refine ⟨?_, accurate.dvd, accurate.small⟩
    have positive := asUnits_defined_iff.mp accurate.asMicros
    rw [toNat_MICROSECOND] at positive
    omega
  · rintro ⟨least, ⟨megahertz, whole⟩, small⟩
    rw [whole, Nat.mul_div_cancel_left _ (by decide)] at small
    have millis : 1000 ∣ tickFreqHz.toNat := by omega
    refine ⟨new_roundsDown whole small, ?_, ?_, ?_, ?_, ?_, ?_⟩
    · exact convertsUnits_of_dvd toNat_MILLISECOND millis
    · exact convertsUnits_of_dvd toNat_MICROSECOND ⟨megahertz, whole⟩
    · refine asUnits_defined_iff.mpr ?_
      rw [toNat_MILLISECOND]
      omega
    · refine asUnits_defined_iff.mpr ?_
      rw [toNat_MICROSECOND]
      omega
    · exact convertsBack_units toNat_MILLISECOND (by decide)
    · exact convertsBack_units toNat_MICROSECOND (by decide)

/-- At 32768 Hz a second of milliseconds is 768 ticks short, microseconds are no time at all, and
they cannot be counted.
-/
theorem duration_inaccurate_32768
    : (fromMillis true 32768 1000 = .ok ⟨32000⟩
        ∧ fromMicros true 32768 1000000 = .ok ⟨0⟩
        ∧ asMicros 32768 ⟨32768⟩ = .error .divisionByZero)
      ∧ ¬ Accurate true 32768
      ∧ ¬ Accurate false 32768 := by
  refine ⟨⟨rfl, rfl, rfl⟩, fun accurate => ?_, fun accurate => ?_⟩
  all_goals
    obtain ⟨micros, counted⟩ := accurate.asMicros ⟨32768⟩
    have undefined : asMicros 32768 ⟨32768⟩ = .error .divisionByZero := rfl
    rw [undefined] at counted
    cases counted

end Duration

end Scars
