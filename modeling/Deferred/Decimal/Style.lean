import Deferred.Decimal.Shortest

set_option autoImplicit false

namespace Deferred.Decimal

structure Style where
  /-- Decides on the exponent of the leading digit. -/
  positional : Int → Bool
  /-- A whole number is written with one zero after the point. -/
  keepsFraction : Bool

def zeros (n : Nat) : List Char := List.replicate n '0'

def digitChars (d : Decimal) : List Char := Nat.toDigits 10 d.digits

/-- The power of ten of the leading digit. -/
def leading (d : Decimal) : Int := d.digitChars.length + d.exponent - 1

def positionalChars (d : Decimal) (keepsFraction : Bool) : List Char :=
  let ds := d.digitChars
  let places := (-d.exponent).toNat
  if places = 0 then
    ds ++ zeros d.exponent.toNat ++ if keepsFraction then ['.', '0'] else []
  else if places < ds.length then
    ds.take (ds.length - places) ++ '.' :: ds.drop (ds.length - places)
  else '0' :: '.' :: (zeros (places - ds.length) ++ ds)

def exponentChars (d : Decimal) : List Char :=
  let fraction := d.digitChars.drop 1
  d.digitChars.take 1 ++ (if fraction.isEmpty then [] else '.' :: fraction) ++
    'e' :: (toString d.leading).toList

def write (s : Style) (d : Decimal) : String :=
  String.ofList <|
    if s.positional d.leading then d.positionalChars s.keepsFraction else d.exponentChars

/-- A finite number with its sign; negative zero keeps it. -/
def writeSigned (s : Style) (x : Double) : String :=
  let text := (shortest x).write s
  if x.isNegative then "-" ++ text else text

end Deferred.Decimal
