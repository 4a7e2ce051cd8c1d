import Deferred.Heap

/-!
# Sources of bindings

Where names are looked up during a substitution. A look-up is local and forces nothing: enclosing
scopes are not searched and a promise comes back as a promise.
-/
set_option autoImplicit false

namespace Deferred

inductive Scope where
  | empty
  | frame
  | list
  | environment
  deriving DecidableEq, Repr

def Scope.name : Scope → String
  | empty => "empty"
  | frame => "frame"
  | list => "list"
  | environment => "environment"

inductive Source (ν : Type := Value) where
  | nothing
  | frame (frame : Frame ν)
  | list (items : Listing ν)
  | environment (id : EnvironmentId)

namespace Source

variable {ν : Type}

def scope : Source ν → Scope
  | nothing => .empty
  | frame _ => .frame
  | list _ => .list
  | environment _ => .environment

def owner? : Source ν → Option Symbol
  | frame f => f.function
  | _ => none

/-- What a name is bound to. Of list items with one label the first counts. -/
def find? (o : Objects ν) : Source ν → Symbol → Option ν
  | nothing, _ => none
  | frame f, name => f.slots.find? name
  | list items, name => items.lookup? name
  | environment id, name => (o.environment id).bindings.find? name

end Source

end Deferred
