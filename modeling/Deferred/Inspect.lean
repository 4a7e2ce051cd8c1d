import Deferred.Event
import Deferred.Text.Quoted

set_option autoImplicit false

namespace Deferred

def recordText (name : String) (fields : List (String × String)) : String :=
  name ++ " \x7b " ++ String.intercalate ", " (fields.map fun f => f.1 ++ ": " ++ f.2) ++ " \x7d"

def sequenceText (items : List String) : String := "[" ++ String.intercalate ", " items ++ "]"

def boolText (b : Bool) : String := if b then "true" else "false"

namespace Kind

/-- Numbers from a ten-thousandth up to below ten quadrillions are written positionally, and whole
ones keep a fraction. -/
def inspectedDecimal : Decimal.Style := ⟨fun e => decide (-4 ≤ e ∧ e < 16), true⟩

def inspectDouble (x : Double) : String :=
  if x.isNaN then "NaN"
  else if x.isInfinite then if x.isNegative then "-inf" else "inf"
  else Decimal.writeSigned inspectedDecimal x

def inspectLogical : Logical → String
  | .no => "False"
  | .yes => "True"
  | .missing => "Na"

/-- A missing integer shows as the number that stands for it. -/
def inspect : (k : Kind) → k.Elem → String
  | int, x => toString x.toInt
  | double, x => inspectDouble x
  | logical, x => inspectLogical x

end Kind

namespace Heap

def inspectVector {k : Kind} (h : Heap) (v : Vec k) : String :=
  recordText "Vector"
    [("type", Text.quoted k.name), ("encoding", (v.encoding h.store).name),
      ("elements", sequenceText ((v.elements h.store).map k.inspect))]

def inspectEnvironment (h : Heap) (id : EnvironmentId) : String :=
  let e := h.environment id
  recordText "Environment"
    [("global", boolText e.isGlobal),
      ("names",
        sequenceText (e.bindings.names.map fun n => "Symbol(" ++ Text.quoted n.name ++ ")")),
      ("has_parent", boolText e.parent.isSome)]

def inspectPromise (h : Heap) (id : PromiseId) (expression : Expression) : String :=
  recordText "Promise"
    [("expression", Text.quoted (h.nodeText expression)),
      ("forced", boolText (h.outcome? id).isSome)]

def inspect? (h : Heap) : Value → Option String
  | .vector v => some (h.inspectVector v)
  | .environment id => some (h.inspectEnvironment id)
  | .promise id n _ => some (h.inspectPromise id n)
  | _ => none

end Heap

end Deferred
