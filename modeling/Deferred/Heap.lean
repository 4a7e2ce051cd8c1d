import Deferred.Bindings
import Deferred.Value

/-!
# The heap

Everything that can change behind a value: the cells of vectors, the bindings of environments and
the values that promises were fulfilled with. Identities are handed out once and stay good.
-/
set_option autoImplicit false

namespace Deferred

/-- Where an environment stands among the others, which are known by their `ρ`. A global one lies in
no other. -/
inductive Standing (ρ : Type) where
  | global
  | ordinary (parent : Option ρ)

namespace Standing

variable {ρ σ : Type}

def isGlobal : Standing ρ → Bool
  | global => true
  | ordinary _ => false

def parent : Standing ρ → Option ρ
  | global => none
  | ordinary parent => parent

theorem parent_of_isGlobal {s : Standing ρ} (h : s.isGlobal = true) : s.parent = none := by
  cases s with
  | global => rfl
  | ordinary _ => simp [isGlobal] at h

/-- Finds the environment that another is to lie in; it lies in none if there is no such one. -/
def resolve (find? : ρ → Option σ) : Standing ρ → Standing σ
  | global => global
  | ordinary parent => ordinary (parent.bind find?)

end Standing

structure Environment (ν : Type := Value) where
  bindings : Bindings ν
  standing : Standing EnvironmentId

namespace Environment

variable {ν : Type}

def empty : Environment ν := ⟨Bindings.empty, .ordinary none⟩

def isGlobal (e : Environment ν) : Bool := e.standing.isGlobal

def parent (e : Environment ν) : Option EnvironmentId := e.standing.parent

end Environment

/-- The variables of one activation of a function. -/
structure Frame (ν : Type := Value) where
  function : Option Symbol
  slots : Bindings ν

/-- The environments, promises and closures that values of type `ν` know by an identity. -/
structure Objects (ν : Type := Value) where
  environments : Array (Environment ν)
  /-- What each promise was fulfilled with. -/
  outcomes : Array (Option ν)
  /-- How many closures were made. -/
  closures : Nat

namespace Objects

variable {ν : Type} {V : Kind → Type}

def empty : Objects ν := ⟨#[], #[], 0⟩

/-- An identity that was never handed out reads as an empty environment. -/
def environment (o : Objects ν) (id : EnvironmentId) : Environment ν :=
  o.environments[id.index]?.getD Environment.empty

def isGlobal (o : Objects ν) (id : EnvironmentId) : Bool := (o.environment id).isGlobal

def newEnvironment (o : Objects ν) (standing : Standing EnvironmentId) :
    EnvironmentId × Objects ν :=
  (⟨o.environments.size⟩,
    { o with environments := o.environments.push ⟨Bindings.empty, standing⟩ })

def define (o : Objects ν) (id : EnvironmentId) (name : Symbol) (value : ν) : Objects ν :=
  { o with
    environments := o.environments.modify id.index fun e =>
      { e with bindings := e.bindings.insert name value } }

def newPromise (o : Objects (Value V)) (expression : Expression V)
    (scope : Option EnvironmentId) : Value V × Objects (Value V) :=
  (.promise ⟨o.outcomes.size⟩ expression scope, { o with outcomes := o.outcomes.push none })

/-- The value a promise was fulfilled with. -/
def outcome? (o : Objects ν) (id : PromiseId) : Option ν := (o.outcomes[id.index]?).join

/-- Fulfils a promise, once. -/
def fulfil (o : Objects ν) (id : PromiseId) (value : ν) : Option (Objects ν) :=
  match o.outcome? id with
  | some _ => none
  | none => some { o with outcomes := o.outcomes.setIfInBounds id.index (some value) }

def newClosure (o : Objects (Value V)) (formals : List (Formal (Expression V)))
    (body : Expression V) (scope : EnvironmentId) : Value V × Objects (Value V) :=
  (.closure ⟨o.closures⟩ formals body scope, { o with closures := o.closures + 1 })

end Objects

structure Heap extends Objects where
  store : Store

instance : Coe Heap Objects := ⟨Heap.toObjects⟩

def Heap.empty : Heap := ⟨Objects.empty, Store.empty⟩

end Deferred
