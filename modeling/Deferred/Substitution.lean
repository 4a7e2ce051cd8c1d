import Deferred.Event
import Deferred.Fault
import Deferred.Value.Duplicate

/-!
# Substitution

Substitution puts the bindings of a source into an unevaluated expression. A symbol gives way to the
tree of its binding, a call head to a name, and an argument `...` to the entries of a bundle; a tree
that was put in is not entered. The walk counts how deep it is and keeps a record of the names it
looked up, and both outlive a failure.
-/
set_option autoImplicit false

namespace Deferred

variable {V : Kind → Type}

/-- The tree that a bound value puts in: a copy of the expression of a promise or a quotation, and a
constant for anything else. -/
def Value.tree : Value V → Expression V
  | promise _ n _ => n.duplicate
  | language n => n.duplicate
  | v => .constant v

/-- The name that a bound value gives to a call head, if it denotes one. -/
def Value.target? : Value V → Option Symbol
  | promise _ n _ => n.symbol?
  | language n => n.symbol?
  | symbol name => some name
  | _ => none

/-- The argument that an entry of a bundle becomes. An entry without value becomes its name, or a
hole if it has none. -/
def Argument.ofEntry : Argument (Value V) → Argument (Expression V)
  | ⟨name, some v⟩ => ⟨name, some v.tree⟩
  | ⟨some name, none⟩ => ⟨none, some (.symbol name)⟩
  | ⟨none, none⟩ => ⟨none, none⟩

def Value.bundle? : Value V → Option (List (Argument (Value V)))
  | bundle entries => some entries
  | _ => none

/-- What a substitution goes by: a look-up of names and the deepest level it may reach. -/
structure Rules (V : Kind → Type := Vec) where
  find? : Symbol → Option (Value V)
  limit : Nat

/-- Where a walk is and which names it looked up, the latest first. -/
structure Walk where
  depth : Nat
  lookups : List Lookup

def Walk.start : Walk := ⟨0, []⟩

/-- A step of a walk that may fail. -/
abbrev Walking (V : Kind → Type) (α : Type) := Walk → Except (Fault (Value V)) α × Walk

namespace Walking

variable {α β : Type}

def pure (a : α) : Walking V α := fun w => (.ok a, w)

def fail (e : Fault (Value V)) : Walking V α := fun w => (.error e, w)

def bind (x : Walking V α) (f : α → Walking V β) : Walking V β := fun w =>
  match x w with
  | (.ok a, w) => f a w
  | (.error e, w) => (.error e, w)

/-- Runs a step one level deeper, unless the limit is reached, and comes back up whatever its
outcome. -/
def nested (limit : Nat) (x : Walking V α) : Walking V α := fun w =>
  if limit ≤ w.depth then (.error (.tooDeep limit), w)
  else
    let (r, w) := x { w with depth := w.depth + 1 }
    (r, { w with depth := w.depth - 1 })

theorem bind_of_ok {x : Walking V α} {w w' : Walk} {a : α} (h : x w = (.ok a, w'))
    (f : α → Walking V β) : bind x f w = f a w' := by
  simp [bind, h]

theorem bind_of_error {x : Walking V α} {w w' : Walk} {e : Fault (Value V)}
    (h : x w = (.error e, w')) (f : α → Walking V β) : bind x f w = (.error e, w') := by
  simp [bind, h]

theorem nested_of_le {limit : Nat} {w : Walk} (h : limit ≤ w.depth) (x : Walking V α) :
    nested limit x w = (.error (.tooDeep limit), w) := by
  simp [nested, h]

theorem nested_of_lt {limit : Nat} {w : Walk} (h : w.depth < limit) (x : Walking V α) :
    nested limit x w =
      ((x { w with depth := w.depth + 1 }).1,
        { (x { w with depth := w.depth + 1 }).2 with
          depth := (x { w with depth := w.depth + 1 }).2.depth - 1 }) := by
  simp [nested, Nat.not_le.2 h]

end Walking

instance : Monad (Walking V) where
  pure := Walking.pure
  bind := Walking.bind

namespace Rules

def look (r : Rules V) (name : Symbol) : Walking V (Option (Value V)) := fun w =>
  (.ok (r.find? name), { w with lookups := ⟨name, (r.find? name).isSome⟩ :: w.lookups })

/-- The bundle to splice in place of an argument, if the argument is `...` and so bound. -/
def bundleFor (r : Rules V) (n : Expression V) : Walking V (Option (List (Argument (Value V)))) :=
  if n.symbol? = some Symbol.dots then do
    let binding ← r.look Symbol.dots
    return binding.bind Value.bundle?
  else return none

def head (r : Rules V) (function : Symbol) : Walking V Symbol := do
  match ← r.look function with
  | none => return function
  | some v =>
    match v.target? with
    | some name => return name
    | none => Walking.fail (.targetNotName function v)

mutual

def substitute (r : Rules V) (n : Expression V) : Walking V (Expression V) :=
  Walking.nested r.limit <|
    match n with
    | .constant v => return Node.duplicate (.constant v)
    | .symbol name => do
      match ← r.look name with
      | some v => return v.tree
      | none => return .symbol name
    | .call f as => do
      let f ← r.head f
      return .call f (← r.substituteArguments as)
    | .block ss => return .block (← r.substituteNodes ss)
    | .ifElse c t none => return .ifElse (← r.substitute c) (← r.substitute t) none
    | .ifElse c t (some e) =>
      return .ifElse (← r.substitute c) (← r.substitute t) (some (← r.substitute e))
    | .whileLoop c b => return .whileLoop (← r.substitute c) (← r.substitute b)
    | .repeatLoop b => return .repeatLoop (← r.substitute b)
    | .forLoop x s b => return .forLoop x (← r.substitute s) (← r.substitute b)
    | .function fs b => return .function (← r.substituteFormals fs) (← r.substitute b)
    | .assign x v isSuper => return .assign x (← r.substitute v) isSuper
    | .binary op l m => return .binary op (← r.substitute l) (← r.substitute m)
    | .unary op x => return .unary op (← r.substitute x)
    | .index b as exact => return .index (← r.substitute b) (← r.substituteArguments as) exact
    | .field b x => return .field (← r.substitute b) x
    | .nextLoop => return .nextLoop
    | .breakLoop => return .breakLoop

def substituteArguments (r : Rules V) :
    List (Argument (Expression V)) → Walking V (List (Argument (Expression V)))
  | [] => return []
  | ⟨name, none⟩ :: as => return ⟨name, none⟩ :: (← r.substituteArguments as)
  | ⟨name, some n⟩ :: as => do
    match ← r.bundleFor n with
    | some entries => return entries.map Argument.ofEntry ++ (← r.substituteArguments as)
    | none =>
      let n ← r.substitute n
      return ⟨name, some n⟩ :: (← r.substituteArguments as)

def substituteNodes (r : Rules V) : List (Expression V) → Walking V (List (Expression V))
  | [] => return []
  | n :: ns => do
    let n ← r.substitute n
    return n :: (← r.substituteNodes ns)

def substituteFormals (r : Rules V) :
    List (Formal (Expression V)) → Walking V (List (Formal (Expression V)))
  | [] => return []
  | ⟨name, none⟩ :: fs => return ⟨name, none⟩ :: (← r.substituteFormals fs)
  | ⟨name, some n⟩ :: fs => do
    let n ← r.substitute n
    return ⟨name, some n⟩ :: (← r.substituteFormals fs)

end

/-- Takes expressions one after another in one walk, so that each starts where the one before it
left off. -/
def substituteEach (r : Rules V) :
    List (Expression V) → Walk → List (Except (Fault (Value V)) (Expression V)) × Walk
  | [], w => ([], w)
  | n :: ns, w =>
    let (result, w) := r.substitute n w
    let (results, w) := r.substituteEach ns w
    (result :: results, w)

end Rules

structure Substitution (V : Kind → Type := Vec) where
  source : Source (Value V)
  limit : Nat

namespace Substitution

def rules (s : Substitution V) (o : Objects (Value V)) : Rules V := ⟨s.source.find? o, s.limit⟩

def events (s : Substitution V) (w : Walk) : List Event :=
  w.lookups.reverse.map (Event.ofLookup s.source)

def apply (s : Substitution V) (o : Objects (Value V)) (n : Expression V) :
    Except (Fault (Value V)) (Expression V) × List Event :=
  let (result, w) := (s.rules o).substitute n Walk.start
  (result, s.events w)

def applyEach (s : Substitution V) (o : Objects (Value V)) (ns : List (Expression V)) :
    List (Except (Fault (Value V)) (Expression V)) × List Event :=
  let (results, w) := (s.rules o).substituteEach ns Walk.start
  (results, s.events w)

/-- The result as a value: a constant stands for what it holds, any other tree is quoted. -/
def applyValue (s : Substitution V) (o : Objects (Value V)) (n : Expression V) :
    Except (Fault (Value V)) (Value V) × List Event :=
  let (result, events) := s.apply o n
  (result.map Value.ofExpression, events)

end Substitution

end Deferred
