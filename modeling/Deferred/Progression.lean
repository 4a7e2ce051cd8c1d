import Deferred.Element

/-!
# Arithmetic progressions

`Progression.term p i` is the element `start + i * step`, and `Progression.length` counts the terms
up to a given end, or says why there is no such progression. Integers have their own rules; those
for doubles are stated for any `Arithmetic`.
-/
set_option autoImplicit false

namespace Deferred

/-- A start and a step; only integers and doubles can be added up. -/
inductive Progression : Kind → Type where
  | int (start step : Int32) : Progression .int
  | double (start step : Double) : Progression .double

inductive ProgressionFault where
  | missingBound
  | notFinite
  | zeroStep
  | wrongSign
  | tooManySteps
  deriving DecidableEq, Repr

def ProgressionFault.message : ProgressionFault → String
  | missingBound => "missing value in sequence bounds"
  | notFinite => "'from', 'to' and 'by' must be finite numbers"
  | zeroStep => "invalid '(to - from)/by' in seq(.)"
  | wrongSign => "wrong sign in 'by' argument"
  | tooManySteps => "'by' argument is much too small"

/-- The arithmetic in which terms are made and steps are counted. -/
structure Arithmetic (α : Type) where
  ofInt : Int → α
  isFinite : α → Bool
  lt : α → α → Bool
  numEq : α → α → Bool
  add : α → α → α
  sub : α → α → α
  mul : α → α → α
  div : α → α → α
  /-- The greatest whole number not above a number. -/
  floor : α → Int
  /-- A span that falls short of a whole number of steps by no more than this still counts as
  whole. -/
  tolerance : α

namespace Arithmetic

variable {α : Type} (a : Arithmetic α)

def zero : α := a.ofInt 0

/-- The most steps that a progression may have. -/
def mostSteps : α := a.ofInt Int32.maxValue.toInt

/-- The product is the first operand of the sum: if both are no numbers, the answer is that of the
product. -/
def term (start step : α) (i : Nat) : α := a.add (a.mul (a.ofInt i) step) start

def length (start stop step : α) : Except ProgressionFault Nat :=
  if !a.isFinite start || !a.isFinite stop || !a.isFinite step then .error .notFinite
  else
    let span := a.sub stop start
    if a.numEq step a.zero then if a.numEq span a.zero then .ok 1 else .error .zeroStep
    else
      let steps := a.div span step
      if a.lt steps a.zero then .error .wrongSign
      else if a.lt a.mostSteps steps then .error .tooManySteps
      else .ok ((a.floor (a.add steps a.tolerance)).toNat + 1)

end Arithmetic

/-- Arithmetic with a rounding after every operation. -/
def Double.arithmetic : Arithmetic Double where
  ofInt := ofInt
  isFinite := isFinite
  lt := lt
  numEq := numEq
  add := add
  sub := sub
  mul := mul
  div := div
  floor := floor
  tolerance := ⟨0x3DDB7CDFD9D7BDBB⟩

namespace Progression

variable {k : Kind}

/-- The progression with a start and a step, if elements of the kind can be added up. -/
def of? : (k : Kind) → k.Elem → k.Elem → Option (Progression k)
  | .int, start, step => some (.int start step)
  | .double, start, step => some (.double start step)
  | .logical, _, _ => none

def start : Progression k → k.Elem
  | .int start _ => start
  | .double start _ => start

/-- Integer terms are added up in 64-bit words and cut to 32 bits; double terms are rounded
twice. -/
def term : Progression k → Nat → k.Elem
  | .int start step, i => (start.toInt64 + Int64.ofNat i * step.toInt64).toInt32
  | .double start step, i => Double.arithmetic.term start step i

def intLength (start stop step : Int32) : Except ProgressionFault Nat :=
  if start = Kind.missingInt ∨ stop = Kind.missingInt ∨ step = Kind.missingInt then
    .error .missingBound
  else
    let span := stop.toInt64 - start.toInt64
    if step = 0 then if span = 0 then .ok 1 else .error .zeroStep
    else if span ≠ 0 ∧ span.toInt.sign ≠ step.toInt.sign then .error .wrongSign
    else .ok ((span / step.toInt64).toInt.toNat + 1)

/-- How many terms there are up to `stop`. -/
def length : Progression k → k.Elem → Except ProgressionFault Nat
  | .int start step, stop => intLength start stop step
  | .double start step, stop => Double.arithmetic.length start stop step

end Progression

end Deferred
