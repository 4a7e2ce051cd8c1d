import Deferred.Source
import Deferred.Value.Anchors

/-!
# Scenes and sessions

A scene is a number of objects and the values held by named registers. A register holds one handle;
while it does, nothing that the handle leads to goes out of existence. A session is a scene over
vectors whose cells are in a store.
-/
set_option autoImplicit false

namespace Deferred

inductive Register where
  | named (name : String)
  /-- Holds an intermediate value. -/
  | scratch (number : Nat)
  deriving DecidableEq, Repr

def Register.isNamed : Register → Bool
  | named _ => true
  | scratch _ => false

/-- Objects, and values of type `ν` in registers. -/
structure Scene (ν : Type := Value) where
  objects : Objects ν
  registers : List (Register × ν)

/-- A source of bindings made up from registers. -/
inductive SourceRef where
  | nothing
  /-- The variables of a frame are registers. -/
  | frame (function : Option Symbol) (slots : List (Symbol × Register))
  /-- The list or environment in a register. -/
  | held (r : Register)

namespace Scene

variable {ν : Type} {V : Kind → Type}

def empty : Scene ν := ⟨Objects.empty, []⟩

def value? (s : Scene ν) (r : Register) : Option ν := s.registers.lookup r

def drop (s : Scene ν) (r : Register) : Scene ν :=
  { s with registers := s.registers.filter (·.1 ≠ r) }

def put (s : Scene ν) (r : Register) (v : ν) : Scene ν :=
  { s with registers := (r, v) :: (s.drop r).registers }

def dropScratch (s : Scene ν) : Scene ν :=
  { s with registers := s.registers.filter fun e => e.1.isNamed }

def withObjects (s : Scene ν) (o : Objects ν) : Scene ν := { s with objects := o }

/-- An empty register reads as null. -/
def read (s : Scene (Value V)) (r : Register) : Value V := (s.value? r).getD .null

/-- An expression whose constants are the values of registers. -/
def expression (s : Scene (Value V)) (n : Node Register) : Expression V := n.map s.read

def environment? (s : Scene (Value V)) (r : Register) : Option EnvironmentId :=
  match s.value? r with
  | some (.environment id) => some id
  | _ => none

def frame (s : Scene (Value V)) (function : Option Symbol) (slots : List (Symbol × Register)) :
    Frame (Value V) :=
  ⟨function, Bindings.ofList (slots.map fun p => (p.1, s.read p.2))⟩

def source? (s : Scene (Value V)) : SourceRef → Option (Source (Value V))
  | .nothing => some .nothing
  | .frame function slots => some (.frame (s.frame function slots))
  | .held r =>
    match s.value? r with
    | some (.list items) => some (.list items)
    | some (.environment id) => some (.environment id)
    | _ => none

/-- Everything that some handle of the scene leads to. -/
def holdings (s : Scene) : List Anchor :=
  s.objects.holdings (s.registers.flatMap (·.2.anchors))

end Scene

structure Session extends Scene where
  store : Store

namespace Session

def empty : Session := ⟨Scene.empty, Store.empty⟩

def heap (s : Session) : Heap := ⟨s.objects, s.store⟩

def withScene (s : Session) (scene : Scene) : Session := { s with toScene := scene }

def withStore (s : Session) (st : Store) : Session := { s with store := st }

def put (s : Session) (r : Register) (v : Value) : Session := s.withScene (s.toScene.put r v)

def drop (s : Session) (r : Register) : Session := s.withScene (s.toScene.drop r)

def dropScratch (s : Session) : Session := s.withScene s.toScene.dropScratch

/-- Whether no register, container or view of the session holds a cell. -/
def isFree {k : Kind} (s : Session) (a : Address k) : Bool :=
  s.holdings.all fun h => (⟨k, a⟩ : Σ k, Address k) ∉ h.addresses

end Session

end Deferred
