import Deferred.Heap

/-!
# What a value holds on to

The anchors of a value are the vectors, environments and promises that it keeps in existence, found
at any depth: in lists, bundles, quoted expressions and constants. Behind an environment or a
promise the objects of the heap decide what else is held.
-/
set_option autoImplicit false

namespace Deferred

inductive Anchor where
  | vector {k : Kind} (v : Vec k)
  | environment (id : EnvironmentId)
  | promise (id : PromiseId)

/-- What can hold values of its own. -/
inductive Owner where
  | environment (id : EnvironmentId)
  | promise (id : PromiseId)
  deriving DecidableEq, Repr

namespace Anchor

def owner? : Anchor → Option Owner
  | vector _ => none
  | environment id => some (.environment id)
  | promise id => some (.promise id)

def addresses : Anchor → List (Σ k, Address k)
  | vector v => v.addresses
  | _ => []

end Anchor

def EnvironmentId.anchors (id : Option EnvironmentId) : List Anchor :=
  (id.map Anchor.environment).toList

mutual

def Value.anchors : Value → List Anchor
  | .null => []
  | .vector v => [.vector v]
  | .symbol _ => []
  | .language n => Node.anchors n
  | .promise id n scope => .promise id :: (Node.anchors n ++ EnvironmentId.anchors scope)
  | .bundle es => anchorsOfBundle es
  | .list (.plain vs) => anchorsOfValues vs
  | .list (.labelled es) => anchorsOfEntries es
  | .environment id => [.environment id]
  | .closure _ fs b scope => anchorsOfFormals fs ++ Node.anchors b ++ [.environment scope]

def Node.anchors : Expression → List Anchor
  | .constant v => Value.anchors v
  | .symbol _ => []
  | .call _ as => anchorsOfArguments as
  | .block ss => anchorsOfNodes ss
  | .ifElse c t none => Node.anchors c ++ Node.anchors t
  | .ifElse c t (some e) => Node.anchors c ++ Node.anchors t ++ Node.anchors e
  | .whileLoop c b => Node.anchors c ++ Node.anchors b
  | .repeatLoop b => Node.anchors b
  | .forLoop _ s b => Node.anchors s ++ Node.anchors b
  | .function fs b => anchorsOfFormals fs ++ Node.anchors b
  | .assign _ v _ => Node.anchors v
  | .binary _ l r => Node.anchors l ++ Node.anchors r
  | .unary _ x => Node.anchors x
  | .index b as _ => Node.anchors b ++ anchorsOfArguments as
  | .field b _ => Node.anchors b
  | .nextLoop => []
  | .breakLoop => []

def anchorsOfArguments : List (Argument Expression) → List Anchor
  | [] => []
  | ⟨_, none⟩ :: as => anchorsOfArguments as
  | ⟨_, some n⟩ :: as => Node.anchors n ++ anchorsOfArguments as

def anchorsOfNodes : List Expression → List Anchor
  | [] => []
  | n :: ns => Node.anchors n ++ anchorsOfNodes ns

def anchorsOfFormals : List (Formal Expression) → List Anchor
  | [] => []
  | ⟨_, none⟩ :: fs => anchorsOfFormals fs
  | ⟨_, some n⟩ :: fs => Node.anchors n ++ anchorsOfFormals fs

def anchorsOfBundle : List (Argument Value) → List Anchor
  | [] => []
  | ⟨_, none⟩ :: es => anchorsOfBundle es
  | ⟨_, some v⟩ :: es => Value.anchors v ++ anchorsOfBundle es

def anchorsOfValues : List Value → List Anchor
  | [] => []
  | v :: vs => Value.anchors v ++ anchorsOfValues vs

def anchorsOfEntries : List (Entry Value) → List Anchor
  | [] => []
  | ⟨_, v⟩ :: es => Value.anchors v ++ anchorsOfEntries es

end

/-- An environment or a promise, with what it holds on to. -/
structure Container where
  owner : Owner
  held : List Anchor

namespace Objects

/-- What an environment or a promise holds on to. -/
def held (o : Objects) : Owner → List Anchor
  | .environment id =>
    EnvironmentId.anchors (o.environment id).parent ++
      (o.environment id).bindings.entries.flatMap (·.2.anchors)
  | .promise id => ((o.outcome? id).map Value.anchors).getD []

def owners (o : Objects) : List Owner :=
  (List.range o.environments.size).map (fun i => .environment ⟨i⟩) ++
    (List.range o.outcomes.size).map fun i => .promise ⟨i⟩

def containers (o : Objects) : List Container :=
  (o.owners.map fun e => ⟨e, o.held e⟩).filter (!·.held.isEmpty)

end Objects

namespace Container

def isAmong (c : Container) (anchors : List Anchor) : Bool :=
  anchors.any (·.owner? = some c.owner)

/-- The containers that something in `roots` or in a container still holds. -/
def sweep (roots : List Anchor) (cs : List Container) : List Container :=
  cs.filter fun c => c.isAmong roots || cs.any (c.isAmong ·.held)

/-- Sweeps until nothing more goes. What goes in one sweep can free what it held in the next, while
containers that hold each other stay. -/
def settle (roots : List Anchor) : Nat → List Container → List Container
  | 0, cs => cs
  | fuel + 1, cs =>
    let swept := sweep roots cs
    if swept.length = cs.length then cs else settle roots fuel swept

end Container

/-- Everything that `roots` and the containers still in existence hold on to. -/
def Objects.holdings (o : Objects) (roots : List Anchor) : List Anchor :=
  roots ++ (Container.settle roots o.containers.length o.containers).flatMap (·.held)

end Deferred
