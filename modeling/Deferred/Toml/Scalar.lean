import Deferred.Double.Arithmetic
import Deferred.Toml.Item
import Deferred.Toml.Quoted

set_option autoImplicit false

namespace Deferred.Toml

def isDigit (c : Char) : Bool := '0' ≤ c && c ≤ '9'

def isScalarChar (c : Char) : Bool :=
  isDigit c || ('a' ≤ c && c ≤ 'z') || ('A' ≤ c && c ≤ 'Z') || c ∈ ['_', '+', '-', '.', ':']

/-- The digits of a run in which single underscores may stand between digits. -/
def digitRun? (isDigit : Char → Bool) : List Char → Option (List Char)
  | [] => none
  | [c] => if isDigit c then some [c] else none
  | c :: '_' :: r => if isDigit c then (digitRun? isDigit r).map (c :: ·) else none
  | c :: r => if isDigit c then (digitRun? isDigit r).map (c :: ·) else none

def natOfDigits (base : Nat) (ds : List Char) : Nat :=
  ds.foldl (fun n c => base * n + (hexDigit? c).getD 0) 0

def splitSign : List Char → Bool × List Char
  | '+' :: r => (false, r)
  | '-' :: r => (true, r)
  | cs => (false, cs)

/-- Decimal digits without leading zeros. -/
def decimalDigits? (cs : List Char) : Option (List Char) :=
  match cs with
  | '0' :: _ :: _ => none
  | _ => digitRun? isDigit cs

def inRange (n : Int) : Option Item :=
  if Int64.minValue.toInt ≤ n ∧ n ≤ Int64.maxValue.toInt then some (.integer n) else none

def isDigitOf (base : Nat) (c : Char) : Bool :=
  match hexDigit? c with
  | some d => decide (d < base)
  | none => false

def ofInteger? (cs : List Char) : Option Item :=
  match cs with
  | '0' :: 'x' :: r => (digitRun? (isDigitOf 16) r).bind fun ds => inRange (natOfDigits 16 ds)
  | '0' :: 'o' :: r => (digitRun? (isDigitOf 8) r).bind fun ds => inRange (natOfDigits 8 ds)
  | '0' :: 'b' :: r => (digitRun? (isDigitOf 2) r).bind fun ds => inRange (natOfDigits 2 ds)
  | _ =>
    let (negative, r) := splitSign cs
    (decimalDigits? r).bind fun ds =>
      let n : Int := natOfDigits 10 ds
      inRange (if negative then -n else n)

/-- The double nearest to `digits * 10 ^ exponent`. Far outside the range of doubles the power is
not computed. -/
def decimalToDouble (negative : Bool) (digits : Nat) (exponent : Int) : Double :=
  let lead := (Nat.toDigits 10 digits).length + exponent
  if digits = 0 ∨ lead < -400 then Double.signedZero negative
  else if 400 < lead then Double.infinity negative
  else Double.ofRatio negative (digits * Nat.pow 10 exponent.toNat)
    (Nat.pow 10 (-exponent).toNat)

def exponent? (cs : List Char) : Option Int :=
  let (negative, r) := splitSign cs
  (digitRun? isDigit r).map fun ds =>
    let n : Int := natOfDigits 10 ds
    if negative then -n else n

/-- A float has a fraction, an exponent or both, and is not too large. -/
def ofFloat? (cs : List Char) : Option Item := do
  let (negative, r) := splitSign cs
  if r = ['i', 'n', 'f'] then return .float (Double.infinity negative)
  if r = ['n', 'a', 'n'] then return .float Double.nan
  let mantissa := r.takeWhile fun c => c ≠ 'e' && c ≠ 'E'
  let power := (r.drop mantissa.length).drop 1
  let hasExponent := mantissa.length < r.length
  let whole := mantissa.takeWhile (· ≠ '.')
  let fraction := (mantissa.drop whole.length).drop 1
  let hasFraction := whole.length < mantissa.length
  if !hasExponent && !hasFraction then none
  else
    let ds ← decimalDigits? whole
    let fs ← if hasFraction then digitRun? isDigit fraction else some []
    let e ← if hasExponent then exponent? power else some 0
    let x := decimalToDouble negative (natOfDigits 10 (ds ++ fs)) (e - fs.length)
    if x.isInfinite && !negative then none else some (.float x)

def twoDigits? (a b : Char) : Option Nat :=
  if isDigit a && isDigit b then some (natOfDigits 10 [a, b]) else none

def daysOfMonth (year month : Nat) : Nat :=
  if month = 2 then
    if year % 4 = 0 ∧ (year % 100 ≠ 0 ∨ year % 400 = 0) then 29 else 28
  else if month ∈ [4, 6, 9, 11] then 30 else 31

def readDate : List Char → Option (List Char)
  | a :: b :: c :: d :: '-' :: e :: f :: '-' :: g :: h :: r => do
    let century ← twoDigits? a b
    let year ← twoDigits? c d
    let month ← twoDigits? e f
    let day ← twoDigits? g h
    if 1 ≤ month ∧ month ≤ 12 ∧ 1 ≤ day ∧ day ≤ daysOfMonth (100 * century + year) month then some r
    else none
  | _ => none

def readTime : List Char → Option (List Char)
  | a :: b :: ':' :: c :: d :: ':' :: e :: f :: r => do
    let hour ← twoDigits? a b
    let minute ← twoDigits? c d
    let second ← twoDigits? e f
    if hour ≤ 23 ∧ minute ≤ 59 ∧ second ≤ 60 then
      match r with
      | '.' :: r =>
        let fraction := r.takeWhile isDigit
        if fraction = [] then none else some (r.drop fraction.length)
      | r => some r
    else none
  | _ => none

def isOffset : List Char → Bool
  | [c] => c = 'Z' || c = 'z'
  | [s, a, b, ':', c, d] =>
    (s = '+' || s = '-') &&
      match twoDigits? a b, twoDigits? c d with
      | some hour, some minute => decide (hour ≤ 23 ∧ minute ≤ 59)
      | _, _ => false
  | _ => false

def isZonedTime (cs : List Char) : Bool :=
  match readTime cs with
  | some [] => true
  | some r => isOffset r
  | none => false

def isDate (cs : List Char) : Bool := readDate cs = some []

def isDateTime (cs : List Char) : Bool :=
  match readDate cs with
  | some [] => true
  | some ('T' :: r) => isZonedTime r
  | some ('t' :: r) => isZonedTime r
  | some _ => false
  | none => readTime cs = some []

def Item.ofScalar? (cs : List Char) : Option Item :=
  if cs = ['t', 'r', 'u', 'e'] then some (.boolean true)
  else if cs = ['f', 'a', 'l', 's', 'e'] then some (.boolean false)
  else if isDateTime cs then some .dateTime
  else (ofInteger? cs).or (ofFloat? cs)

/-- A scalar at the start, and the rest. A time may follow a date behind one blank. -/
def readScalar (cs : List Char) : Option (Item × List Char) :=
  let run := cs.takeWhile isScalarChar
  let rest := cs.dropWhile isScalarChar
  match rest with
  | ' ' :: more =>
    let time := more.takeWhile isScalarChar
    if isDate run && isZonedTime time then some (.dateTime, more.dropWhile isScalarChar)
    else (Item.ofScalar? run).map (·, rest)
  | _ => (Item.ofScalar? run).map (·, rest)

end Deferred.Toml
