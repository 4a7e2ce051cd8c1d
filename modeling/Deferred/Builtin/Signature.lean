import Deferred.Fault

set_option autoImplicit false

namespace Deferred

structure Signature where
  name : String
  params : List String
  required : List String

/-- What was supplied for each parameter. -/
structure Matching where
  params : List String
  slots : List (Option Expression)

namespace Matching

def position? (m : Matching) (param : String) : Option Nat := m.params.idxOf? param

def get? (m : Matching) (param : String) : Option Expression :=
  (m.position? param).bind fun i => (m.slots[i]?).join

/-- What was supplied for a parameter, which is then no longer supplied. -/
def take (m : Matching) (param : String) : Option Expression × Matching :=
  match m.position? param with
  | none => (none, m)
  | some i => (m.slots[i]?.join, { m with slots := m.slots.set i none })

def takeEach (m : Matching) : List String → List (Option Expression)
  | [] => []
  | param :: params =>
    let (supplied, m) := m.take param
    supplied :: m.takeEach params

end Matching

/-- The parameters that are taken up, by position, and what with. -/
abbrev Taken := List (Nat × Option Expression)

namespace Signature

def position? (s : Signature) (param : String) : Option Nat := s.params.idxOf? param

def matchNamed (s : Signature) : List (Argument Expression) → Taken → Except Fault Taken
  | [], taken => .ok taken
  | a :: as, taken =>
    match a.name with
    | none => s.matchNamed as taken
    | some name =>
      match s.position? name.name with
      | none => .error (.unusedArgument a)
      | some i =>
        if i ∈ taken.map Prod.fst then .error (.duplicateArgument name)
        else s.matchNamed as ((i, a.value) :: taken)

def matchPositional : List (Argument Expression) → List Nat → Except Fault Taken
  | [], _ => .ok []
  | a :: _, [] => .error (.unusedArgument a)
  | a :: as, i :: free =>
    match matchPositional as free with
    | .ok taken => .ok ((i, a.value) :: taken)
    | .error e => .error e

def checkRequired (s : Signature) (slots : List (Option Expression)) :
    List String → Except Fault Unit
  | [] => .ok ()
  | p :: ps =>
    match s.position? p with
    | none => .error (.requiredNotFormal s.name p)
    | some i =>
      if (slots[i]?.join).isSome then s.checkRequired slots ps else .error (.missingArgument p)

def slotsOf (s : Signature) (taken : Taken) : List (Option Expression) :=
  (List.range s.params.length).map fun i => (taken.lookup i).join

def matchArguments (s : Signature) (arguments : List (Argument Expression)) :
    Except Fault Matching := do
  let named ← s.matchNamed arguments []
  let free := (List.range s.params.length).filter (· ∉ named.map Prod.fst)
  let positional ← matchPositional (arguments.filter (·.name.isNone)) free
  let slots := s.slotsOf (named ++ positional)
  s.checkRequired slots s.required
  return ⟨s.params, slots⟩

end Signature

end Deferred
