import Deferred.Decimal.Style

set_option autoImplicit false

namespace Deferred

inductive Logical where
  | no
  | yes
  | missing
  deriving DecidableEq, Repr

def Logical.ofBool (b : Bool) : Logical := if b then .yes else .no

inductive Kind where
  | int
  | double
  | logical
  deriving DecidableEq, Repr

namespace Kind

@[reducible] def Elem : Kind → Type
  | int => Int32
  | double => Double
  | logical => Logical

instance (k : Kind) : DecidableEq k.Elem := by
  cases k <;> exact inferInstance

def name : Kind → String
  | int => "integer"
  | double => "double"
  | logical => "logical"

/-- The least 32-bit integer stands for a missing one. -/
def missingInt : Int32 := Int32.minValue

/-- The NaN with payload 1954 stands for a missing double. -/
def missingDouble : Double := ⟨0x7FF00000000007A2⟩

def missing : (k : Kind) → k.Elem
  | int => missingInt
  | double => missingDouble
  | logical => .missing

/-- Among doubles every NaN counts as missing. -/
def isMissing : (k : Kind) → k.Elem → Bool
  | int, x => x = missingInt
  | double, x => x.isNaN
  | logical, x => x = .missing

def zero : (k : Kind) → k.Elem
  | int => 0
  | double => Double.zero
  | logical => .no

/-- Sameness of elements: equal bits or, for doubles, equal numbers, so that every NaN is the same
as itself and the two zeros are the same. -/
def same : (k : Kind) → k.Elem → k.Elem → Bool
  | int, x, y => x = y
  | double, x, y => x = y || x.numEq y
  | logical, x, y => x = y

theorem same_self (k : Kind) (x : k.Elem) : k.same x x = true := by
  cases k <;> simp [same]

def sameOption (k : Kind) : Option k.Elem → Option k.Elem → Bool
  | some x, some y => k.same x y
  | none, none => true
  | _, _ => false

/-- Doubles are written without exponents, as short as reads back. -/
def plainDecimal : Decimal.Style := ⟨fun _ => true, false⟩

def doubleText (x : Double) : String :=
  if x = missingDouble then "NA"
  else if x.isNaN then "NaN"
  else if x.isInfinite then if x.isNegative then "-Inf" else "Inf"
  else Decimal.writeSigned plainDecimal x

def intText (x : Int32) : String :=
  if x = missingInt then "NA" else toString x.toInt ++ "L"

def logicalText : Logical → String
  | .no => "FALSE"
  | .yes => "TRUE"
  | .missing => "NA"

def text : (k : Kind) → k.Elem → String
  | int => intText
  | double => doubleText
  | logical => logicalText

def intToDouble (x : Int32) : Double :=
  if x = missingInt then missingDouble else Double.ofInt x.toInt

def intToLogical (x : Int32) : Logical :=
  if x = missingInt then .missing else Logical.ofBool (x ≠ 0)

/-- Cuts toward zero; what then is no 32-bit integer, or is the one that stands for a missing
value, is missing. -/
def doubleToInt (x : Double) : Int32 :=
  if x.isNaN then missingInt
  else
    let whole := x.roundTowardZero
    if (Double.ofInt Int32.maxValue.toInt).lt whole || whole.le (Double.ofInt missingInt.toInt) then
      missingInt
    else whole.toInt32

def doubleToLogical (x : Double) : Logical :=
  if x.isNaN then .missing else Logical.ofBool (x.magnitude ≠ 0)

def logicalToInt : Logical → Int32
  | .no => 0
  | .yes => 1
  | .missing => missingInt

def logicalToDouble : Logical → Double
  | .no => Double.zero
  | .yes => Double.one
  | .missing => missingDouble

def convert : (s t : Kind) → s.Elem → t.Elem
  | int, int => id
  | int, double => intToDouble
  | int, logical => intToLogical
  | double, int => doubleToInt
  | double, double => id
  | double, logical => doubleToLogical
  | logical, int => logicalToInt
  | logical, double => logicalToDouble
  | logical, logical => id

theorem convert_missing (s t : Kind) : convert s t s.missing = t.missing := by
  cases s <;> cases t <;> decide

end Kind

end Deferred
