import Deferred.Value.Text

set_option autoImplicit false

namespace Deferred

/-- `ν` is the type of the values that a fault can name. -/
inductive Fault (ν : Type := Value) where
  /-- A scope argument was neither an environment nor a list. -/
  | invalidEnvironment (argument : String)
  /-- The head of a call is bound to something that denotes no name. -/
  | targetNotName (function : Symbol) (binding : ν)
  /-- An evaluator that only looks names up was given something else. -/
  | notEvaluable (expression : Node ν)
  | unusedArgument (argument : Argument (Node ν))
  | missingArgument (parameter : String)
  | duplicateArgument (name : Symbol)
  | progression (fault : ProgressionFault)
  | indexOutOfBounds (index size : Nat)
  /-- An expression is nested deeper than a limit. -/
  | tooDeep (limit : Nat)
  | forcedTwice (expression : Node ν)
  /-- A builtin requires a parameter that it does not have. -/
  | requiredNotFormal (builtin parameter : String)
  | objectNotFound (name : Symbol)

namespace Heap

def describe (h : Heap) : Value → String
  | .promise _ n _ => n.kindName ++ " `" ++ h.nodeText n ++ "`"
  | .language n => n.kindName ++ " `" ++ h.nodeText n ++ "`"
  | v => v.typeName ++ " value"

end Heap

def Fault.message (h : Heap) : Fault → String
  | invalidEnvironment a => "Invalid environment: '" ++ a ++ "' must be an environment or a list"
  | targetNotName f v =>
    "Unsupported operation: cannot use " ++ h.describe v ++ " as the target of call `" ++ f.name ++
      "`; only names can be substituted there"
  | notEvaluable n => "Unsupported operation: cannot evaluate " ++ h.nodeText n
  | unusedArgument a => "Unused argument: " ++ h.argumentText a
  | missingArgument p => "Missing required argument '" ++ p ++ "'"
  | duplicateArgument name =>
    "Duplicate argument: '" ++ name.name ++ "' matched by multiple actual arguments"
  | progression e => "Invalid argument: " ++ e.message
  | indexOutOfBounds i n =>
    "Index out of bounds: index " ++ toString i ++ " is not in range [0, " ++ toString n ++ ")"
  | tooDeep limit =>
    "Stack overflow: expression nested deeper than " ++ toString limit ++ " levels"
  | forcedTwice n => "Internal error: promise for `" ++ h.nodeText n ++ "` forced twice"
  | requiredNotFormal f p =>
    "Internal error: " ++ f ++ ": required parameter '" ++ p ++ "' is not a formal"
  | objectNotFound name => "Internal error: object '" ++ name.name ++ "' not found"

end Deferred
