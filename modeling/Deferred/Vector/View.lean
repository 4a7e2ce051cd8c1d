import Deferred.Progression
import Deferred.Vector.Store

/-!
# Vector handles

A `Vec` is the address of a dense cell or a lazy view over other vectors. Reading goes through the
view to the cells; a view has no cell of its own and stores nothing but sizes that never change.
-/
set_option autoImplicit false

namespace Deferred

inductive Encoding where
  | scalar
  | block
  | view
  deriving DecidableEq, Repr

inductive Vec : Kind → Type where
  | dense {k : Kind} (address : Address k) : Vec k
  | sequence {k : Kind} (terms : Progression k) (size : Nat) : Vec k
  /-- All elements of `base` but the one at `skip`. -/
  | exclusion {k : Kind} (base : Vec k) (skip size : Nat) : Vec k
  /-- The elements of `base` at the positions in `index`, which count from one. -/
  | subset {k : Kind} (base : Vec k) (baseSize : Nat) (index : Vec .int) : Vec k
  | coercion {s t : Kind} (source : Vec s) : Vec t

namespace Vec

variable {k : Kind}

def size {k : Kind} : Vec k → Store → Nat
  | dense a, st => (st.cell a).contents.size
  | sequence _ n, _ => n
  | exclusion _ _ n, _ => n
  | subset _ _ index, st => index.size st
  | coercion source, st => source.size st

/-- The element at a position. A position in a subset that is missing, not positive or past the end
of its base reads as missing. -/
def read {k : Kind} : Vec k → Store → Nat → Except RangeFault k.Elem
  | dense a, st, i => (st.cell a).contents.read i
  | sequence p n, _, i => if i < n then .ok (p.term i) else .error (.sequence i)
  | exclusion base skip n, st, i =>
    if i < n then base.read st (if i < skip then i else i + 1) else .error (.exclusion i)
  | subset base n index, st, i =>
    match index.read st i with
    | .error e => .error e
    | .ok j =>
      if j.toInt ≤ 0 ∨ n < j.toInt.toNat then .ok k.missing
      else base.read st (j.toInt.toNat - 1)
  | coercion (s := s) (t := t) source, st, i => (source.read st i).map (Kind.convert s t)

def element? (v : Vec k) (st : Store) (i : Nat) : Option k.Elem := (v.read st i).toOption

def elements (v : Vec k) (st : Store) : List k.Elem :=
  (List.range (v.size st)).filterMap (v.element? st)

/-- Only dense cells carry attributes, and a coercion shows those of its source. -/
def attributes {k : Kind} : Vec k → Store → Option Attributes
  | dense a, st => (st.cell a).attributes
  | coercion source, st => source.attributes st
  | _, _ => none

def encoding (v : Vec k) (st : Store) : Encoding :=
  match v with
  | dense a => if (st.cell a).contents.isBlock then .block else .scalar
  | _ => .view

/-- The cells that a vector is or reads from. -/
def addresses {k : Kind} : Vec k → List (Σ k, Address k)
  | dense a => [⟨_, a⟩]
  | sequence _ _ => []
  | exclusion base _ _ => base.addresses
  | subset base _ index => base.addresses ++ index.addresses
  | coercion source => source.addresses

/-- Whether an owner has claimed any cell that the vector is or reads from. -/
def isShared {k : Kind} : Vec k → Store → Bool
  | dense a, st => (st.cell a).marks.any
  | sequence _ _, _ => false
  | exclusion base _ _, st => base.isShared st
  | subset base _ index, st => base.isShared st || index.isShared st
  | coercion source, st => source.isShared st

/-- Records one more owner of every cell that the vector is or reads from. -/
def claim {k : Kind} : Vec k → Store → Store
  | dense a, st => st.mark a
  | sequence _ _, st => st
  | exclusion base _ _, st => base.claim st
  | subset base _ index, st => index.claim (base.claim st)
  | coercion source, st => source.claim st

def place (contents : Contents k.Elem) (attributes : Option Attributes) (st : Store) :
    Vec k × Store :=
  let (a, st) := st.alloc contents attributes
  (dense a, st)

def ofList (xs : List k.Elem) (st : Store) : Vec k × Store := place (.ofList xs) none st

def scalar (x : k.Elem) (st : Store) : Vec k × Store := place (.scalar x) none st

def replicate (n : Nat) (x : k.Elem) (st : Store) : Vec k × Store :=
  ofList (List.replicate n x) st

/-- The terms up to `stop`; a single one is kept as a scalar. -/
def progression (p : Progression k) (stop : k.Elem) (st : Store) :
    Except ProgressionFault (Vec k × Store) :=
  match p.length stop with
  | .error e => .error e
  | .ok n => .ok (if n = 1 then scalar p.start st else (sequence p n, st))

def copy (v : Vec k) (st : Store) : Vec k × Store :=
  place (.ofList (v.elements st)) (v.attributes st) st

def withAttributes (v : Vec k) (attributes : Attributes) (st : Store) : Vec k × Store :=
  place (.ofList (v.elements st)) attributes.nonEmpty? st

/-- A block with the same elements and attributes: the vector itself if it is one. -/
def materialize (v : Vec k) (st : Store) : Vec k × Store :=
  if v.encoding st = .block then (v, st)
  else place (.block (v.elements st).toArray) (v.attributes st) st

def exclude (v : Vec k) (i : Nat) (st : Store) : Option (Vec k) :=
  if i < v.size st then some (exclusion v i (v.size st - 1)) else none

def gather (v : Vec k) (index : Vec .int) (st : Store) : Vec k := subset v (v.size st) index

/-- The vector read as another kind: itself for its own kind, a new scalar for a scalar, and a view
for all else. -/
def coerce {s : Kind} (v : Vec s) (t : Kind) (st : Store) : Vec t × Store :=
  if h : s = t then (h ▸ v, st)
  else
    match v with
    | dense a =>
      match (st.cell a).contents with
      | .scalar x => place (.scalar (Kind.convert s t x)) (st.cell a).attributes st
      | .block _ => (coercion v, st)
    | _ => (coercion v, st)

/-- The vector with one element replaced, if it has that element. A block that nobody has claimed
and that has no other holder (`sole`) is written in place, all else is copied first. -/
def set (v : Vec k) (i : Nat) (x : k.Elem) (sole : Bool) (st : Store) : Option (Vec k × Store) :=
  if i < v.size st then
    match v with
    | dense a =>
      if sole && (st.cell a).contents.isBlock && !v.isShared st then some (v, st.write a i x)
      else some (place (.block ((v.elements st).set i x).toArray) (v.attributes st) st)
    | _ => some (place (.block ((v.elements st).set i x).toArray) (v.attributes st) st)
  else none

/-- Vectors are the same when they have the same elements at the same positions; encoding and
attributes do not count. -/
def same (v w : Vec k) (st : Store) : Bool :=
  v.size st = w.size st &&
    (v.size st).all fun i _ => k.sameOption (v.element? st i) (w.element? st i)

end Vec

/-- No element, one element and many have three forms. -/
def Kind.listText (k : Kind) : List k.Elem → String
  | [] => k.name ++ "(0)"
  | [x] => k.text x
  | xs => "c(" ++ String.intercalate ", " (xs.map k.text) ++ ")"

def Vec.text {k : Kind} (v : Vec k) (st : Store) : String := k.listText (v.elements st)

end Deferred
