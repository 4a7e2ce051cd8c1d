import Deferred.Proofs.Vector.Plain
import Deferred.Session.Command

/-!
# Ledgers

A ledger takes the same commands as a session but holds plain vectors in its registers, lists,
environments, promises and constants. Nothing in it is shared, so nothing is ever written in place.
-/
set_option autoImplicit false

namespace Deferred

abbrev Ledger := Scene (Value Plain)

namespace Ledger

def putVector {k : Kind} (l : Ledger) (target : Register) (p : Plain k) : Ledger :=
  l.put target (.vector p)

def onVector (l : Ledger) (r : Register)
    (f : (k : Kind) → Plain k → Step Ledger (Value Plain)) : Step Ledger (Value Plain) :=
  match l.value? r with
  | some (.vector (k := k) p) => f k p
  | _ => .unfit l r

def makeProgression (l : Ledger) (target : Register) {k : Kind} (p : Progression k)
    (stop : k.Elem) : Step Ledger (Value Plain) :=
  match p.length stop with
  | .ok n => .done (l.putVector target (Plain.progression p n))
  | .error e => .failed l (.progression e)

def exclude (l : Ledger) (target source : Register) (i : Nat) : Step Ledger (Value Plain) :=
  l.onVector source fun _ p =>
    if i < p.elements.length then .done (l.putVector target (p.exclude i))
    else .failed l (.indexOutOfBounds i p.elements.length)

def gather (l : Ledger) (target source index : Register) : Step Ledger (Value Plain) :=
  l.onVector source fun _ p =>
    match (l.value? index).bind (Value.vector? .int) with
    | some ix => .done (l.putVector target (p.gather ix))
    | none => .unfit l index

/-- There are no owners to be recorded. -/
def claim (l : Ledger) (r : Register) : Step Ledger (Value Plain) :=
  match l.value? r with
  | some _ => .done l
  | none => .unfit l r

def set (l : Ledger) (target source : Register) (keep : Bool) {k : Kind} (i : Nat)
    (x : k.Elem) : Step Ledger (Value Plain) :=
  match (l.value? source).bind (Value.vector? k) with
  | some p =>
    let rest := if keep then l else l.drop source
    if i < p.elements.length then .done (rest.putVector target (p.set i x))
    else .failed rest (.indexOutOfBounds i p.elements.length)
  | none => .unfit l source

def step (l : Ledger) : Command → Step Ledger (Value Plain)
  | .share target source => l.share target source
  | .drop r => .done (l.drop r)
  | .null target => .done (l.put target .null)
  | .symbol target name => .done (l.put target (.symbol name))
  | .quote target n => l.makeQuote target n
  | .promise target n scope => l.makePromise target n scope
  | .fulfil promise value => l.fulfil promise value
  | .bundle target entries => l.makeBundle target entries
  | .list target items => l.makeList target items
  | .environment target standing => l.makeEnvironment target standing
  | .define environment name value => l.define environment name value
  | .fetch target environment name => l.fetch target environment name
  | .closure target formals body scope => l.makeClosure target formals body scope
  | .substitute target source n limit => l.substitute target source n limit
  | .vector target _ xs => .done (l.putVector target (Plain.ofList xs))
  | .scalar target _ x => .done (l.putVector target (Plain.ofList [x]))
  | .replicate target _ n x => .done (l.putVector target (Plain.ofList (List.replicate n x)))
  | .progression target _ p stop => l.makeProgression target p stop
  | .copy target source => l.onVector source fun _ p => .done (l.putVector target p)
  | .withAttributes target source attributes =>
    l.onVector source fun _ p => .done (l.putVector target (p.withAttributes attributes))
  | .materialize target source => l.onVector source fun _ p => .done (l.putVector target p)
  | .exclude target source i => l.exclude target source i
  | .gather target source index => l.gather target source index
  | .coerce target source k =>
    l.onVector source fun _ p => .done (l.putVector target (p.coerce k))
  | .claim r => l.claim r
  | .set target source keep _ i x => l.set target source keep i x

/-- The ledger after a list of commands; one that fails is passed over. -/
def run (l : Ledger) (commands : List Command) : Ledger :=
  commands.foldl (fun l c => (l.step c).session) l

end Ledger

end Deferred
