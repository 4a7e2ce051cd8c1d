import Deferred.Double.Arithmetic

/-!
# Shortest decimals

`Decimal.shortest` gives a finite binary64 number the decimal with the fewest digits that rounds
back to it; of several with so few digits the nearest, and of two equally near the greater.
-/
set_option autoImplicit false

namespace Deferred

/-- The number `digits * 10 ^ exponent`. -/
structure Decimal where
  digits : Nat
  exponent : Int
  deriving DecidableEq, Repr

namespace Decimal

/-- A number between the ends of the interval of all reals that round to it, in quarters of a
unit. The ends themselves round to it when its significand is even. -/
structure Rounding where
  value : Nat
  below : Nat
  above : Nat
  closed : Bool

/-- Half a step reaches the next number, except that the step below a power of two is half as
wide. -/
def Rounding.of (x : Double) : Rounding :=
  let value := 4 * x.absUnits
  let step := 1 <<< (x.exponentField - 1)
  let narrow := x.fractionField = 0 ∧ 1 < x.exponentField
  { value, below := value - (if narrow then step else 2 * step), above := value + 2 * step
    closed := x.fractionField % 2 = 0 }

def quartersOfOne : Nat := 4 * Double.unitsOfOne

def Rounding.contains (r : Rounding) (num den : Nat) : Bool :=
  if r.closed then decide (r.below * den ≤ num ∧ num ≤ r.above * den)
  else decide (r.below * den < num ∧ num < r.above * den)

/-- The multiple of `10 ^ k` to write for the number, if one of its two neighbours on that grid
rounds to it. -/
def Rounding.onGrid? (r : Rounding) (k : Int) : Option Nat :=
  let den := Nat.pow 10 (-k).toNat
  let step := Nat.pow 10 k.toNat * quartersOfOne
  let g := r.value * den / step
  match r.contains (g * step) den, r.contains ((g + 1) * step) den with
  | true, true => if 2 * (r.value * den) < (2 * g + 1) * step then some g else some (g + 1)
  | true, false => some g
  | false, true => some (g + 1)
  | false, false => none

/-- Tries the grids `10 ^ k`, `10 ^ (k - 1)`, … and takes the first that has a multiple to write. -/
def Rounding.search (r : Rounding) : Nat → Int → Decimal
  | 0, k => ⟨0, k⟩
  | fuel + 1, k =>
    match r.onGrid? k with
    | some g => ⟨g, k⟩
    | none => r.search fuel (k - 1)

/-- A power of ten above the number, from its binary logarithm. -/
def Rounding.coarsest (r : Rounding) : Int :=
  ((r.value.log2 : Int) - 1075) * 30103 / 100000 + 2

/-- The shortest decimal of the absolute value. Seventeen digits always round back, so a search
over twenty-four grids ends with one. -/
def shortest (x : Double) : Decimal :=
  if x.magnitude = 0 then ⟨0, 0⟩
  else let r := Rounding.of x; r.search 24 r.coarsest

end Decimal

end Deferred
