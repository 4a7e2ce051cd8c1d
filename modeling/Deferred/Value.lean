import Deferred.Syntax.Node
import Deferred.Vector.View

set_option autoImplicit false

namespace Deferred

structure EnvironmentId where
  index : Nat
  deriving DecidableEq, Repr

structure PromiseId where
  index : Nat
  deriving DecidableEq, Repr

structure ClosureId where
  index : Nat
  deriving DecidableEq, Repr

/-- An item of a labelled list; some items of such a list may lack a label. -/
structure Entry (ν : Type) where
  label : Option Symbol
  value : ν

/-- The items of a list. A labelled list may be empty and still is not a plain one. -/
inductive Listing (ν : Type) where
  | plain (values : List ν)
  | labelled (entries : List (Entry ν))

/-- `V k` is the type of vectors of one kind. -/
inductive Value (V : Kind → Type := Vec) where
  | null
  | vector {k : Kind} (v : V k)
  /-- A bare name used as data. -/
  | symbol (name : Symbol)
  /-- A quoted expression. -/
  | language (expression : Node (Value V))
  /-- An expression and the scope in which it would be evaluated. -/
  | promise (id : PromiseId) (expression : Node (Value V)) (scope : Option EnvironmentId)
  /-- What `...` is bound to. -/
  | bundle (entries : List (Argument (Value V)))
  | list (items : Listing (Value V))
  | environment (id : EnvironmentId)
  | closure (id : ClosureId) (formals : List (Formal (Node (Value V)))) (body : Node (Value V))
      (scope : EnvironmentId)

/-- An expression whose constants are values. -/
abbrev Expression (V : Kind → Type := Vec) := Node (Value V)

namespace Listing

variable {ν : Type}

def values : Listing ν → List ν
  | plain vs => vs
  | labelled es => es.map (·.value)

def size (items : Listing ν) : Nat := items.values.length

def labels? : Listing ν → Option (List (Option Symbol))
  | plain _ => none
  | labelled es => some (es.map (·.label))

def position? (items : Listing ν) (name : Symbol) : Option Nat :=
  items.labels?.bind (·.findIdx? (· = some name))

def lookup? : Listing ν → Symbol → Option ν
  | plain _, _ => none
  | labelled es, name => (es.find? (·.label = some name)).map (·.value)

theorem lookup?_plain (vs : List ν) (name : Symbol) : (plain vs).lookup? name = none := rfl

end Listing

namespace Value

variable {V : Kind → Type}

def typeName : Value V → String
  | null => "NULL"
  | vector (k := k) _ => k.name
  | symbol _ => "symbol"
  | language _ => "language"
  | promise _ _ _ => "promise"
  | bundle _ => "..."
  | list _ => "list"
  | environment _ => "environment"
  | closure _ _ _ _ => "closure"

def vector? (k : Kind) : Value V → Option (V k)
  | vector (k := j) v => if h : j = k then some (h ▸ v) else none
  | _ => none

/-- Only vectors can be shared. -/
def isShared : Value → Store → Bool
  | vector v, st => v.isShared st
  | _, _ => false

/-- The value that an expression stands for without evaluation: a constant stands for what it holds
and anything else for itself, quoted. -/
def ofExpression : Expression V → Value V
  | .constant v => v
  | n => language n

end Value

end Deferred
