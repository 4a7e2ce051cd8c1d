/-!
# Binary64 numbers

A `Double` is its 64 bits, so that signed zeros and NaN payloads stay apart. Every finite one is a
whole number of units of 2⁻¹⁰⁷⁴; `Double.units` is that number, and all arithmetic is stated on it.
-/
set_option autoImplicit false

namespace Deferred

structure Double where
  bits : UInt64
  deriving DecidableEq, Repr

namespace Double

def word (x : Double) : Nat := x.bits.toNat

def isNegative (x : Double) : Bool := decide (1 <<< 63 ≤ x.word)

/-- The exponent and fraction fields read as one number; it grows with the absolute value. -/
def magnitude (x : Double) : Nat := x.word % (1 <<< 63)

def exponentField (x : Double) : Nat := x.magnitude >>> 52

def fractionField (x : Double) : Nat := x.magnitude % (1 <<< 52)

/-- The magnitude of the infinities; finite numbers lie below it and NaNs above. -/
def infiniteMagnitude : Nat := 2047 <<< 52

def isNaN (x : Double) : Bool := decide (infiniteMagnitude < x.magnitude)

def isInfinite (x : Double) : Bool := decide (x.magnitude = infiniteMagnitude)

def isFinite (x : Double) : Bool := decide (x.magnitude < infiniteMagnitude)

/-- The absolute value of a finite number in units of 2⁻¹⁰⁷⁴. -/
def absUnits (x : Double) : Nat :=
  if x.exponentField = 0 then x.fractionField
  else (1 <<< 52 + x.fractionField) <<< (x.exponentField - 1)

/-- A finite number in units of 2⁻¹⁰⁷⁴; both zeros have none. -/
def units (x : Double) : Int := if x.isNegative then -(x.absUnits : Int) else x.absUnits

def ofMagnitude (negative : Bool) (m : Nat) : Double :=
  ⟨UInt64.ofNat (m + if negative then 1 <<< 63 else 0)⟩

def zero : Double := ofMagnitude false 0

def one : Double := ofMagnitude false (1023 <<< 52)

def signedZero (negative : Bool) : Double := ofMagnitude negative 0

def infinity (negative : Bool) : Double := ofMagnitude negative infiniteMagnitude

def nan : Double := ⟨0x7FF8000000000000⟩

/-- The answer of an operation that has none, such as infinity minus infinity. -/
def indeterminate : Double := ⟨0xFFF8000000000000⟩

def quiet (x : Double) : Double := ⟨x.bits ||| 0x0008000000000000⟩

/-- Orders all numbers but the NaNs, with one key for both zeros. -/
def key (x : Double) : Int := if x.isNegative then -(x.magnitude : Int) else x.magnitude

def lt (x y : Double) : Bool := !x.isNaN && !y.isNaN && decide (x.key < y.key)

def le (x y : Double) : Bool := !x.isNaN && !y.isNaN && decide (x.key ≤ y.key)

/-- Equality as numbers: the zeros are equal and a NaN equals nothing. -/
def numEq (x y : Double) : Bool := !x.isNaN && !y.isNaN && decide (x.key = y.key)

theorem lt_irrefl (x : Double) : x.lt x = false := by
  simp [lt]

theorem numEq_comm (x y : Double) : x.numEq y = y.numEq x := by
  simp only [numEq, Bool.and_comm x.isNaN.not, eq_comm (a := x.key)]

theorem numEq_self (x : Double) : x.numEq x = !x.isNaN := by
  simp [numEq]

end Double

end Deferred
