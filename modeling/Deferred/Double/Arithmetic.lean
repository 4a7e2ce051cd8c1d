import Deferred.Double

/-!
# Arithmetic on binary64 numbers

Each operation is exact arithmetic on `Double.units` followed by one rounding to the nearest number,
ties going to the even one. An operand that is a NaN is the answer, made quiet; of two, the first.
-/
set_option autoImplicit false

namespace Deferred.Double

/-- The whole number nearest to `num / den`, a half going to the even neighbour. -/
def nearestEven (num den : Nat) : Nat :=
  let q := num / den
  let twice := 2 * (num % den)
  if twice < den ∨ (twice = den ∧ q % 2 = 0) then q else q + 1

/-- The number nearest to `num / den` units. The significand has 53 bits, so the grid near a value
of `2 ^ (52 + e)` units and more has steps of `2 ^ e` units. -/
def nearest (negative : Bool) (num den : Nat) : Double :=
  let e := (num / den).log2 - 52
  ofMagnitude negative (min (e <<< 52 + nearestEven num (den <<< e)) infiniteMagnitude)

def unitsOfOne : Nat := 1 <<< 1074

/-- The number nearest to the rational `± num / den`. -/
def ofRatio (negative : Bool) (num den : Nat) : Double := nearest negative (num * unitsOfOne) den

def ofInt (n : Int) : Double := ofRatio (decide (n < 0)) n.natAbs 1

/-- The answer forced by a NaN among the operands, otherwise `answer`. -/
def unlessNaN (x y answer : Double) : Double :=
  if x.isNaN then x.quiet else if y.isNaN then y.quiet else answer

def add (x y : Double) : Double :=
  unlessNaN x y <|
    if x.isInfinite then
      if y.isInfinite ∧ x.isNegative ≠ y.isNegative then indeterminate else x
    else if y.isInfinite then y
    else
      let sum := x.units + y.units
      if sum = 0 then signedZero (x.isNegative && y.isNegative)
      else nearest (decide (sum < 0)) sum.natAbs 1

def neg (x : Double) : Double := ⟨x.bits ^^^ 0x8000000000000000⟩

def sub (x y : Double) : Double := unlessNaN x y (add x y.neg)

def mul (x y : Double) : Double :=
  let negative := x.isNegative ^^ y.isNegative
  unlessNaN x y <|
    if x.isInfinite ∨ y.isInfinite then
      if x.magnitude = 0 ∨ y.magnitude = 0 then indeterminate else infinity negative
    else nearest negative (x.absUnits * y.absUnits) unitsOfOne

def div (x y : Double) : Double :=
  let negative := x.isNegative ^^ y.isNegative
  unlessNaN x y <|
    if x.isInfinite then if y.isInfinite then indeterminate else infinity negative
    else if y.isInfinite then signedZero negative
    else if y.magnitude = 0 then
      if x.magnitude = 0 then indeterminate else infinity negative
    else ofRatio negative x.absUnits y.absUnits

def truncate (x : Double) : Int := x.units.tdiv unitsOfOne

/-- The number cut toward zero to a whole one, with its sign; NaNs and infinities stay. -/
def roundTowardZero (x : Double) : Double :=
  if x.isFinite then ofRatio x.isNegative (x.absUnits / unitsOfOne) 1 else x

/-- The whole part as a 32-bit integer: the nearest one where there is none, and zero for a NaN. -/
def toInt32 (x : Double) : Int32 :=
  if x.isNaN then 0
  else if x.isInfinite then if x.isNegative then Int32.minValue else Int32.maxValue
  else Int32.ofInt (max Int32.minValue.toInt (min Int32.maxValue.toInt x.truncate))

def floor (x : Double) : Int := x.units / unitsOfOne

theorem nearestEven_one (n : Nat) : nearestEven n 1 = n := by
  simp [nearestEven, Nat.mod_one]

end Deferred.Double
