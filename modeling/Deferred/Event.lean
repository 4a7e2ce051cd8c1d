import Deferred.Source
import Deferred.Value.Text

set_option autoImplicit false

namespace Deferred

/-- A name that was looked up, and whether it was bound. -/
structure Lookup where
  name : Symbol
  isBound : Bool
  deriving DecidableEq, Repr

inductive Event where
  | lookup (scope : Scope) (owner : Option Symbol) (lookup : Lookup)
  /-- A substitution is about to start. -/
  | substituting (expression : Expression) (scope : Scope)
  /-- A value of this type was offered as a scope and cannot be one. -/
  | rejecting (typeName : String)
  | materializing (encoding : Encoding) (kind : Kind) (size : Nat)

inductive Level where
  | trace
  | debug
  deriving DecidableEq, Repr

def Level.name : Level → String
  | trace => "TRACE"
  | debug => "DEBUG"

def Encoding.name : Encoding → String
  | scalar => "Scalar"
  | block => "Block"
  | view => "View"

namespace Event

def level : Event → Level
  | lookup _ _ _ => .trace
  | substituting _ _ => .debug
  | rejecting _ => .debug
  | materializing _ _ _ => .trace

def message (h : Heap) : Event → String
  | lookup scope owner l =>
    "lookup `" ++ l.name.name ++ "` in " ++ scope.name ++ " scope" ++
      (match owner with
        | some f => " of " ++ f.name
        | none => "") ++
      (if l.isBound then ": bound" else ": unbound")
  | substituting n scope => "substitute `" ++ h.nodeText n ++ "` against " ++ scope.name ++ " scope"
  | rejecting type => "substitute: rejecting " ++ type ++ " as env"
  | materializing encoding k n =>
    "materializing " ++ encoding.name ++ " " ++ k.name ++ " vector of " ++ toString n ++ " elements"

def line (h : Heap) (e : Event) : String := e.level.name ++ " " ++ e.message h

def ofLookup {ν : Type} (source : Source ν) (l : Lookup) : Event :=
  lookup source.scope source.owner? l

end Event

end Deferred
