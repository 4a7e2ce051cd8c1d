import Deferred.Session.Basic
import Deferred.Substitution

/-!
# Commands

A command makes one value or changes one thing in a session. Its operands are registers, never
values, so a list of commands describes a whole run from the empty session.
-/
set_option autoImplicit false

namespace Deferred

inductive Command where
  /-- Puts another handle on the value of a register into another. -/
  | share (target source : Register)
  | drop (r : Register)
  | null (target : Register)
  | symbol (target : Register) (name : Symbol)
  | quote (target : Register) (n : Node Register)
  | promise (target : Register) (n : Node Register) (scope : Option Register)
  | fulfil (promise value : Register)
  | bundle (target : Register) (entries : List (Argument Register))
  | list (target : Register) (items : Listing Register)
  | environment (target : Register) (standing : Standing Register)
  | define (environment : Register) (name : Symbol) (value : Register)
  | fetch (target environment : Register) (name : Symbol)
  | closure (target : Register) (formals : List (Formal (Node Register))) (body : Node Register)
      (scope : Register)
  | substitute (target : Register) (source : SourceRef) (n : Node Register) (limit : Nat)
  | vector (target : Register) (k : Kind) (elements : List k.Elem)
  | scalar (target : Register) (k : Kind) (x : k.Elem)
  | replicate (target : Register) (k : Kind) (n : Nat) (x : k.Elem)
  | progression (target : Register) (k : Kind) (p : Progression k) (stop : k.Elem)
  | copy (target source : Register)
  | withAttributes (target source : Register) (attributes : Attributes)
  | materialize (target source : Register)
  | exclude (target source : Register) (i : Nat)
  | gather (target source index : Register)
  | coerce (target source : Register) (k : Kind)
  /-- Records one more owner of what a register holds. -/
  | claim (r : Register)
  /-- Takes the handle out of `source`, even if this fails, unless it is to be kept there. -/
  | set (target source : Register) (keep : Bool) (k : Kind) (i : Nat) (x : k.Elem)

/-- Why a command had no effect. -/
inductive Complaint (ν : Type := Value) where
  | fault (fault : Fault ν)
  /-- A register does not hold what the command works on. -/
  | unfit (r : Register)

/-- A scene or session after a command, how the command ended and what happened on the way. -/
structure Step (σ : Type) (ν : Type := Value) where
  session : σ
  complaint : Option (Complaint ν)
  events : List Event

namespace Step

variable {σ ν : Type}

def done (s : σ) : Step σ ν := ⟨s, none, []⟩

def failed (s : σ) (f : Fault ν) : Step σ ν := ⟨s, some (.fault f), []⟩

def unfit (s : σ) (r : Register) : Step σ ν := ⟨s, some (.unfit r), []⟩

end Step

namespace Scene

variable {V : Kind → Type}

def putObject (s : Scene (Value V)) (target : Register) (made : Value V × Objects (Value V)) :
    Scene (Value V) :=
  (s.withObjects made.2).put target made.1

def share (s : Scene (Value V)) (target source : Register) : Step (Scene (Value V)) (Value V) :=
  match s.value? source with
  | some v => .done (s.put target v)
  | none => .unfit s source

def makeQuote (s : Scene (Value V)) (target : Register) (n : Node Register) :
    Step (Scene (Value V)) (Value V) :=
  .done (s.put target (.language (s.expression n)))

def makePromise (s : Scene (Value V)) (target : Register) (n : Node Register)
    (scope : Option Register) : Step (Scene (Value V)) (Value V) :=
  .done (s.putObject target (s.objects.newPromise (s.expression n) (scope.bind s.environment?)))

def fulfil (s : Scene (Value V)) (promise value : Register) : Step (Scene (Value V)) (Value V) :=
  match s.value? promise with
  | some (.promise id n _) =>
    match s.objects.fulfil id (s.read value) with
    | some o => .done (s.withObjects o)
    | none => .failed s (.forcedTwice n)
  | _ => .unfit s promise

def makeBundle (s : Scene (Value V)) (target : Register) (entries : List (Argument Register)) :
    Step (Scene (Value V)) (Value V) :=
  .done (s.put target (.bundle (entries.map fun e => ⟨e.name, e.value.map s.read⟩)))

def makeList (s : Scene (Value V)) (target : Register) :
    Listing Register → Step (Scene (Value V)) (Value V)
  | .plain rs => .done (s.put target (.list (.plain (rs.map s.read))))
  | .labelled es =>
    .done (s.put target (.list (.labelled (es.map fun e => ⟨e.label, s.read e.value⟩))))

def makeEnvironment (s : Scene (Value V)) (target : Register) (standing : Standing Register) :
    Step (Scene (Value V)) (Value V) :=
  let (id, o) := s.objects.newEnvironment (standing.resolve s.environment?)
  .done (s.putObject target (.environment id, o))

def define (s : Scene (Value V)) (environment : Register) (name : Symbol) (value : Register) :
    Step (Scene (Value V)) (Value V) :=
  match s.environment? environment with
  | some id => .done (s.withObjects (s.objects.define id name (s.read value)))
  | none => .unfit s environment

def fetch (s : Scene (Value V)) (target environment : Register) (name : Symbol) :
    Step (Scene (Value V)) (Value V) :=
  match s.environment? environment with
  | some id =>
    match (s.objects.environment id).bindings.find? name with
    | some v => .done (s.put target v)
    | none => .done s
  | none => .unfit s environment

def makeClosure (s : Scene (Value V)) (target : Register)
    (formals : List (Formal (Node Register))) (body : Node Register) (scope : Register) :
    Step (Scene (Value V)) (Value V) :=
  match s.environment? scope with
  | some id =>
    let formals := formals.map fun f => ⟨f.name, f.default.map s.expression⟩
    .done (s.putObject target (s.objects.newClosure formals (s.expression body) id))
  | none => .unfit s scope

def substitute (s : Scene (Value V)) (target : Register) (source : SourceRef)
    (n : Node Register) (limit : Nat) : Step (Scene (Value V)) (Value V) :=
  match s.source? source with
  | some source =>
    match (Substitution.mk source limit).applyValue s.objects (s.expression n) with
    | (.ok v, events) => ⟨s.put target v, none, events⟩
    | (.error e, events) => ⟨s, some (.fault e), events⟩
  | none => .unfit s target

end Scene

namespace Session

/-- A step that leaves the store as it is. -/
def inScene (s : Session) (step : Step Scene) : Step Session :=
  ⟨s.withScene step.session, step.complaint, step.events⟩

def putVector {k : Kind} (s : Session) (target : Register) (made : Vec k × Store) : Session :=
  (s.withStore made.2).put target (.vector made.1)

def onVector (s : Session) (r : Register) (f : (k : Kind) → Vec k → Step Session) :
    Step Session :=
  match s.value? r with
  | some (.vector (k := k) v) => f k v
  | _ => .unfit s r

def makeProgression (s : Session) (target : Register) {k : Kind} (p : Progression k)
    (stop : k.Elem) : Step Session :=
  match Vec.progression p stop s.store with
  | .ok made => .done (s.putVector target made)
  | .error e => .failed s (.progression e)

def materialize (s : Session) (target source : Register) : Step Session :=
  s.onVector source fun k v =>
    let st := s.store
    let encoding := v.encoding st
    ⟨s.putVector target (v.materialize st), none,
      if encoding = .block then [] else [.materializing encoding k (v.size st)]⟩

def exclude (s : Session) (target source : Register) (i : Nat) : Step Session :=
  s.onVector source fun _ v =>
    match v.exclude i s.store with
    | some w => .done (s.put target (.vector w))
    | none => .failed s (.indexOutOfBounds i (v.size s.store))

def gather (s : Session) (target source index : Register) : Step Session :=
  s.onVector source fun _ v =>
    match (s.value? index).bind (Value.vector? .int) with
    | some ix => .done (s.put target (.vector (v.gather ix s.store)))
    | none => .unfit s index

/-- Only vectors record their owners. -/
def claim (s : Session) (r : Register) : Step Session :=
  match s.value? r with
  | some (.vector v) => .done (s.withStore (v.claim s.store))
  | some _ => .done s
  | none => .unfit s r

/-- Whether the cell of a dense vector has no holder in the session. -/
def isSole {k : Kind} (s : Session) : Vec k → Bool
  | .dense a => s.isFree a
  | _ => false

def set (s : Session) (target source : Register) (keep : Bool) {k : Kind} (i : Nat)
    (x : k.Elem) : Step Session :=
  match (s.value? source).bind (Value.vector? k) with
  | some v =>
    let rest := if keep then s else s.drop source
    match v.set i x (rest.isSole v) s.store with
    | some made => .done (rest.putVector target made)
    | none => .failed rest (.indexOutOfBounds i (v.size s.store))
  | none => .unfit s source

def step (s : Session) : Command → Step Session
  | .share target source => s.inScene (s.share target source)
  | .drop r => .done (s.drop r)
  | .null target => .done (s.put target .null)
  | .symbol target name => .done (s.put target (.symbol name))
  | .quote target n => s.inScene (s.makeQuote target n)
  | .promise target n scope => s.inScene (s.makePromise target n scope)
  | .fulfil promise value => s.inScene (s.fulfil promise value)
  | .bundle target entries => s.inScene (s.makeBundle target entries)
  | .list target items => s.inScene (s.makeList target items)
  | .environment target standing => s.inScene (s.makeEnvironment target standing)
  | .define environment name value => s.inScene (s.define environment name value)
  | .fetch target environment name => s.inScene (s.fetch target environment name)
  | .closure target formals body scope => s.inScene (s.makeClosure target formals body scope)
  | .substitute target source n limit => s.inScene (s.substitute target source n limit)
  | .vector target _ xs => .done (s.putVector target (Vec.ofList xs s.store))
  | .scalar target _ x => .done (s.putVector target (Vec.scalar x s.store))
  | .replicate target _ n x => .done (s.putVector target (Vec.replicate n x s.store))
  | .progression target _ p stop => s.makeProgression target p stop
  | .copy target source =>
    s.onVector source fun _ v => .done (s.putVector target (v.copy s.store))
  | .withAttributes target source attributes =>
    s.onVector source fun _ v =>
      .done (s.putVector target (v.withAttributes attributes s.store))
  | .materialize target source => s.materialize target source
  | .exclude target source i => s.exclude target source i
  | .gather target source index => s.gather target source index
  | .coerce target source k =>
    s.onVector source fun _ v => .done (s.putVector target (v.coerce k s.store))
  | .claim r => s.claim r
  | .set target source keep _ i x => s.set target source keep i x

/-- The session after a list of commands; one that fails is passed over. -/
def run (s : Session) (commands : List Command) : Session :=
  commands.foldl (fun s c => (s.step c).session) s

end Session

end Deferred
