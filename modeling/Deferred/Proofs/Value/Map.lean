import Deferred.Proofs.Substitution.Outcome
import Deferred.Value.Anchors

/-!
# Values over other vectors

`Value.mapVectors` replaces every vector of a value by another one, at any depth. Nothing but
reading looks into vectors, so substitution gives the same tree before and after.
-/
set_option autoImplicit false

namespace Deferred

variable {V W : Kind → Type}

mutual

def Value.mapVectors (f : {k : Kind} → V k → W k) : Value V → Value W
  | .null => .null
  | .vector v => .vector (f v)
  | .symbol name => .symbol name
  | .language n => .language (Node.mapVectors f n)
  | .promise id n scope => .promise id (Node.mapVectors f n) scope
  | .bundle es => .bundle (mapVectorsOfBundle f es)
  | .list (.plain vs) => .list (.plain (mapVectorsOfValues f vs))
  | .list (.labelled es) => .list (.labelled (mapVectorsOfEntries f es))
  | .environment id => .environment id
  | .closure id fs b scope => .closure id (mapVectorsOfFormals f fs) (Node.mapVectors f b) scope

def Node.mapVectors (f : {k : Kind} → V k → W k) : Expression V → Expression W
  | .constant v => .constant (Value.mapVectors f v)
  | .symbol name => .symbol name
  | .call g as => .call g (mapVectorsOfArguments f as)
  | .block ss => .block (mapVectorsOfNodes f ss)
  | .ifElse c t none => .ifElse (Node.mapVectors f c) (Node.mapVectors f t) none
  | .ifElse c t (some e) =>
    .ifElse (Node.mapVectors f c) (Node.mapVectors f t) (some (Node.mapVectors f e))
  | .whileLoop c b => .whileLoop (Node.mapVectors f c) (Node.mapVectors f b)
  | .repeatLoop b => .repeatLoop (Node.mapVectors f b)
  | .forLoop x s b => .forLoop x (Node.mapVectors f s) (Node.mapVectors f b)
  | .function fs b => .function (mapVectorsOfFormals f fs) (Node.mapVectors f b)
  | .assign x v isSuper => .assign x (Node.mapVectors f v) isSuper
  | .binary op l r => .binary op (Node.mapVectors f l) (Node.mapVectors f r)
  | .unary op x => .unary op (Node.mapVectors f x)
  | .index b as exact => .index (Node.mapVectors f b) (mapVectorsOfArguments f as) exact
  | .field b x => .field (Node.mapVectors f b) x
  | .nextLoop => .nextLoop
  | .breakLoop => .breakLoop

def mapVectorsOfArguments (f : {k : Kind} → V k → W k) :
    List (Argument (Expression V)) → List (Argument (Expression W))
  | [] => []
  | ⟨name, none⟩ :: as => ⟨name, none⟩ :: mapVectorsOfArguments f as
  | ⟨name, some n⟩ :: as => ⟨name, some (Node.mapVectors f n)⟩ :: mapVectorsOfArguments f as

def mapVectorsOfNodes (f : {k : Kind} → V k → W k) : List (Expression V) → List (Expression W)
  | [] => []
  | n :: ns => Node.mapVectors f n :: mapVectorsOfNodes f ns

def mapVectorsOfFormals (f : {k : Kind} → V k → W k) :
    List (Formal (Expression V)) → List (Formal (Expression W))
  | [] => []
  | ⟨name, none⟩ :: fs => ⟨name, none⟩ :: mapVectorsOfFormals f fs
  | ⟨name, some n⟩ :: fs => ⟨name, some (Node.mapVectors f n)⟩ :: mapVectorsOfFormals f fs

def mapVectorsOfBundle (f : {k : Kind} → V k → W k) :
    List (Argument (Value V)) → List (Argument (Value W))
  | [] => []
  | ⟨name, none⟩ :: es => ⟨name, none⟩ :: mapVectorsOfBundle f es
  | ⟨name, some v⟩ :: es => ⟨name, some (Value.mapVectors f v)⟩ :: mapVectorsOfBundle f es

def mapVectorsOfValues (f : {k : Kind} → V k → W k) : List (Value V) → List (Value W)
  | [] => []
  | v :: vs => Value.mapVectors f v :: mapVectorsOfValues f vs

def mapVectorsOfEntries (f : {k : Kind} → V k → W k) :
    List (Entry (Value V)) → List (Entry (Value W))
  | [] => []
  | ⟨label, v⟩ :: es => ⟨label, Value.mapVectors f v⟩ :: mapVectorsOfEntries f es

end

def Fault.mapVectors (f : {k : Kind} → V k → W k) : Fault (Value V) → Fault (Value W)
  | .invalidEnvironment a => .invalidEnvironment a
  | .targetNotName name v => .targetNotName name (v.mapVectors f)
  | .notEvaluable n => .notEvaluable (n.mapVectors f)
  | .unusedArgument a => .unusedArgument ⟨a.name, a.value.map (Node.mapVectors f)⟩
  | .missingArgument p => .missingArgument p
  | .duplicateArgument name => .duplicateArgument name
  | .progression e => .progression e
  | .indexOutOfBounds i n => .indexOutOfBounds i n
  | .tooDeep limit => .tooDeep limit
  | .forcedTwice n => .forcedTwice (n.mapVectors f)
  | .requiredNotFormal b p => .requiredNotFormal b p
  | .objectNotFound name => .objectNotFound name

def mapLookup (f : {k : Kind} → V k → W k) (σ : Symbol → Option (Value V)) :
    Symbol → Option (Value W) := fun name => (σ name).map (Value.mapVectors f)

section Map

variable (f : {k : Kind} → V k → W k)

theorem mapVectorsOfBundle_eq (es : List (Argument (Value V))) :
    mapVectorsOfBundle f es = es.map fun e => ⟨e.name, e.value.map (Value.mapVectors f)⟩ := by
  induction es with
  | nil => rfl
  | cons e es ih =>
    obtain ⟨name, value⟩ := e
    cases value <;> simp [mapVectorsOfBundle, ih]

theorem mapVectorsOfValues_eq (vs : List (Value V)) :
    mapVectorsOfValues f vs = vs.map (Value.mapVectors f) := by
  induction vs with
  | nil => rfl
  | cons v vs ih => rw [mapVectorsOfValues, ih, List.map_cons]

theorem mapVectorsOfEntries_eq (es : List (Entry (Value V))) :
    mapVectorsOfEntries f es = es.map fun e => ⟨e.label, e.value.mapVectors f⟩ := by
  induction es with
  | nil => rfl
  | cons e es ih => rw [mapVectorsOfEntries, ih, List.map_cons]

theorem mapVectorsOfFormals_eq (fs : List (Formal (Expression V))) :
    mapVectorsOfFormals f fs = fs.map fun g => ⟨g.name, g.default.map (Node.mapVectors f)⟩ := by
  induction fs with
  | nil => rfl
  | cons g fs ih =>
    obtain ⟨name, default⟩ := g
    cases default <;> simp [mapVectorsOfFormals, ih]

theorem mapVectorsOfArguments_append (as bs : List (Argument (Expression V))) :
    mapVectorsOfArguments f (as ++ bs) =
      mapVectorsOfArguments f as ++ mapVectorsOfArguments f bs := by
  induction as with
  | nil => rfl
  | cons a as ih =>
    obtain ⟨name, value⟩ := a
    cases value <;> simp [mapVectorsOfArguments, ih]

section Constants

variable {α : Type} (g : α → Value V)

mutual

theorem map_mapVectors : ∀ n : Node α,
    (n.map g).mapVectors f = n.map fun x => (g x).mapVectors f
  | .constant _ => by simp only [Node.map, Node.mapVectors]
  | .symbol _ => rfl
  | .call _ as => congrArg (Node.call _) (mapArguments_mapVectors as)
  | .block ss => congrArg Node.block (mapNodes_mapVectors ss)
  | .ifElse c t none => by
    simp only [Node.map, Node.mapVectors, map_mapVectors c, map_mapVectors t]
  | .ifElse c t (some e) => by
    simp only [Node.map, Node.mapVectors, map_mapVectors c, map_mapVectors t, map_mapVectors e]
  | .whileLoop c b => by
    simp only [Node.map, Node.mapVectors, map_mapVectors c, map_mapVectors b]
  | .repeatLoop b => congrArg Node.repeatLoop (map_mapVectors b)
  | .forLoop _ s b => by
    simp only [Node.map, Node.mapVectors, map_mapVectors s, map_mapVectors b]
  | .function fs b => by
    simp only [Node.map, Node.mapVectors, mapFormals_mapVectors fs, map_mapVectors b]
  | .assign _ v _ => by simp only [Node.map, Node.mapVectors, map_mapVectors v]
  | .binary _ l r => by
    simp only [Node.map, Node.mapVectors, map_mapVectors l, map_mapVectors r]
  | .unary _ x => congrArg (Node.unary _) (map_mapVectors x)
  | .index b as _ => by
    simp only [Node.map, Node.mapVectors, map_mapVectors b, mapArguments_mapVectors as]
  | .field b _ => by simp only [Node.map, Node.mapVectors, map_mapVectors b]
  | .nextLoop => rfl
  | .breakLoop => rfl

theorem mapArguments_mapVectors : ∀ as : List (Argument (Node α)),
    mapVectorsOfArguments f (Node.mapArguments g as) =
      Node.mapArguments (fun x => (g x).mapVectors f) as
  | [] => rfl
  | ⟨_, none⟩ :: as => by
    simp only [Node.mapArguments, mapVectorsOfArguments, mapArguments_mapVectors as]
  | ⟨_, some n⟩ :: as => by
    simp only [Node.mapArguments, mapVectorsOfArguments, map_mapVectors n,
      mapArguments_mapVectors as]

theorem mapNodes_mapVectors : ∀ ns : List (Node α),
    mapVectorsOfNodes f (Node.mapNodes g ns) = Node.mapNodes (fun x => (g x).mapVectors f) ns
  | [] => rfl
  | n :: ns => by
    simp only [Node.mapNodes, mapVectorsOfNodes, map_mapVectors n, mapNodes_mapVectors ns]

theorem mapFormals_mapVectors : ∀ fs : List (Formal (Node α)),
    mapVectorsOfFormals f (Node.mapFormals g fs) =
      Node.mapFormals (fun x => (g x).mapVectors f) fs
  | [] => rfl
  | ⟨_, none⟩ :: fs => by
    simp only [Node.mapFormals, mapVectorsOfFormals, mapFormals_mapVectors fs]
  | ⟨_, some n⟩ :: fs => by
    simp only [Node.mapFormals, mapVectorsOfFormals, map_mapVectors n, mapFormals_mapVectors fs]

end

end Constants

theorem Node.symbol?_mapVectors (n : Expression V) : (n.mapVectors f).symbol? = n.symbol? := by
  cases n with
  | ifElse c t e => cases e <;> simp [Node.mapVectors, symbol?]
  | _ => simp [Node.mapVectors, symbol?]

theorem Node.isDots_mapVectors (n : Expression V) : (n.mapVectors f).isDots = n.isDots := by
  rw [isDots, isDots, symbol?_mapVectors]

namespace Value

theorem tree_mapVectors (v : Value V) : (v.mapVectors f).tree = v.tree.mapVectors f := by
  cases v with
  | promise id n scope => simp [mapVectors, tree, Node.duplicate_eq]
  | language n => simp [mapVectors, tree, Node.duplicate_eq]
  | list items => cases items <;> simp [mapVectors, tree, Node.mapVectors]
  | _ => simp [mapVectors, tree, Node.mapVectors]

theorem target?_mapVectors (v : Value V) : (v.mapVectors f).target? = v.target? := by
  cases v with
  | promise id n scope => exact Node.symbol?_mapVectors f n
  | language n => exact Node.symbol?_mapVectors f n
  | list items => cases items <;> simp [mapVectors, target?]
  | _ => simp [mapVectors, target?]

theorem bundle?_mapVectors (v : Value V) :
    (v.mapVectors f).bundle? = v.bundle?.map (mapVectorsOfBundle f) := by
  cases v with
  | list items => cases items <;> simp [mapVectors, bundle?]
  | _ => simp [mapVectors, bundle?]

theorem ofExpression_mapVectors (n : Expression V) :
    ofExpression (n.mapVectors f) = (ofExpression n).mapVectors f := by
  cases n with
  | ifElse c t e => cases e <;> simp [Node.mapVectors, ofExpression, mapVectors]
  | _ => simp [Node.mapVectors, ofExpression, mapVectors]

end Value

theorem map_ofEntry_mapVectors (es : List (Argument (Value V))) :
    (mapVectorsOfBundle f es).map Argument.ofEntry =
      mapVectorsOfArguments f (es.map Argument.ofEntry) := by
  induction es with
  | nil => rfl
  | cons e es ih =>
    obtain ⟨_ | name, _ | v⟩ := e <;>
      simp [mapVectorsOfBundle, mapVectorsOfArguments, Argument.ofEntry, Node.mapVectors,
        Value.tree_mapVectors, ih]

section Lookup

variable (σ : Symbol → Option (Value V))

theorem bindsBundle_mapLookup : bindsBundle (mapLookup f σ) = bindsBundle σ := by
  unfold bindsBundle mapLookup
  cases σ Symbol.dots with
  | none => rfl
  | some v => simp [Value.bundle?_mapVectors]

theorem bundle?_mapVectors (n : Expression V) :
    (n.mapVectors f).bundle? (mapLookup f σ) = (n.bundle? σ).map (mapVectorsOfBundle f) := by
  unfold Node.bundle? mapLookup
  rw [Node.isDots_mapVectors]
  split
  · cases σ Symbol.dots with
    | none => rfl
    | some v => simp [Value.bundle?_mapVectors]
  · rfl

mutual

theorem graft_mapVectors : ∀ n : Expression V,
    (n.mapVectors f).graft (mapLookup f σ) = (n.graft σ).mapVectors f
  | .constant _ => by simp only [Node.mapVectors, Node.graft]
  | .symbol name => by
    simp only [Node.mapVectors, Node.graft, mapLookup]
    cases σ name with
    | none => simp [Node.mapVectors]
    | some v => simp [Value.tree_mapVectors]
  | .call g as => by
    simp only [Node.mapVectors, Node.graft, graftArguments_mapVectors as]
    congr 2
    unfold mapLookup
    cases σ g with
    | none => rfl
    | some v => simp [Value.target?_mapVectors]
  | .block ss => by simp only [Node.mapVectors, Node.graft, graftNodes_mapVectors ss]
  | .ifElse c t none => by
    simp only [Node.mapVectors, Node.graft, graft_mapVectors c, graft_mapVectors t]
  | .ifElse c t (some e) => by
    simp only [Node.mapVectors, Node.graft, graft_mapVectors c, graft_mapVectors t,
      graft_mapVectors e]
  | .whileLoop c b => by
    simp only [Node.mapVectors, Node.graft, graft_mapVectors c, graft_mapVectors b]
  | .repeatLoop b => by simp only [Node.mapVectors, Node.graft, graft_mapVectors b]
  | .forLoop _ s b => by
    simp only [Node.mapVectors, Node.graft, graft_mapVectors s, graft_mapVectors b]
  | .function fs b => by
    simp only [Node.mapVectors, Node.graft, graftFormals_mapVectors fs, graft_mapVectors b]
  | .assign _ v _ => by simp only [Node.mapVectors, Node.graft, graft_mapVectors v]
  | .binary _ l r => by
    simp only [Node.mapVectors, Node.graft, graft_mapVectors l, graft_mapVectors r]
  | .unary _ x => by simp only [Node.mapVectors, Node.graft, graft_mapVectors x]
  | .index b as _ => by
    simp only [Node.mapVectors, Node.graft, graft_mapVectors b, graftArguments_mapVectors as]
  | .field b _ => by simp only [Node.mapVectors, Node.graft, graft_mapVectors b]
  | .nextLoop => by simp only [Node.mapVectors, Node.graft]
  | .breakLoop => by simp only [Node.mapVectors, Node.graft]

theorem graftArguments_mapVectors : ∀ as : List (Argument (Expression V)),
    Node.graftArguments (mapLookup f σ) (mapVectorsOfArguments f as) =
      mapVectorsOfArguments f (Node.graftArguments σ as)
  | [] => rfl
  | ⟨_, none⟩ :: as => by
    simp only [mapVectorsOfArguments, Node.graftArguments, graftArguments_mapVectors as]
  | ⟨_, some n⟩ :: as => by
    rw [mapVectorsOfArguments, Node.graftArguments, Node.graftArguments,
      mapVectorsOfArguments_append, graftArguments_mapVectors as, bundle?_mapVectors]
    congr 1
    cases n.bundle? σ with
    | some entries => exact map_ofEntry_mapVectors f entries
    | none =>
      simp only [Option.map_none, graft_mapVectors n]
      rfl

theorem graftNodes_mapVectors : ∀ ns : List (Expression V),
    Node.graftNodes (mapLookup f σ) (mapVectorsOfNodes f ns) =
      mapVectorsOfNodes f (Node.graftNodes σ ns)
  | [] => rfl
  | n :: ns => by
    simp only [mapVectorsOfNodes, Node.graftNodes, graft_mapVectors n, graftNodes_mapVectors ns]

theorem graftFormals_mapVectors : ∀ fs : List (Formal (Expression V)),
    Node.graftFormals (mapLookup f σ) (mapVectorsOfFormals f fs) =
      mapVectorsOfFormals f (Node.graftFormals σ fs)
  | [] => rfl
  | ⟨_, none⟩ :: fs => by
    simp only [mapVectorsOfFormals, Node.graftFormals, graftFormals_mapVectors fs]
  | ⟨_, some n⟩ :: fs => by
    simp only [mapVectorsOfFormals, Node.graftFormals, graft_mapVectors n,
      graftFormals_mapVectors fs]

end

end Lookup

def Visit.mapVectors (v : Visit (Value V)) : Visit (Value W) := ⟨v.depth, v.node.mapVectors f⟩

mutual

theorem visits_mapVectors (spliced : Bool) (d : Nat) : ∀ n : Expression V,
    (n.mapVectors f).visits spliced d = (n.visits spliced d).map (Visit.mapVectors f)
  | .constant _ => rfl
  | .symbol _ => rfl
  | .call _ as => by
    simp only [Node.mapVectors, Node.visits, List.map_cons, visitsArguments_mapVectors _ _ as,
      Visit.mapVectors]
  | .block ss => by
    simp only [Node.mapVectors, Node.visits, List.map_cons, visitsNodes_mapVectors _ _ ss,
      Visit.mapVectors]
  | .ifElse c t none => by
    simp only [Node.mapVectors, Node.visits, List.map_cons, List.map_append,
      visits_mapVectors _ _ c, visits_mapVectors _ _ t, Visit.mapVectors]
  | .ifElse c t (some e) => by
    simp only [Node.mapVectors, Node.visits, List.map_cons, List.map_append,
      visits_mapVectors _ _ c, visits_mapVectors _ _ t, visits_mapVectors _ _ e,
      Visit.mapVectors]
  | .whileLoop c b => by
    simp only [Node.mapVectors, Node.visits, List.map_cons, List.map_append,
      visits_mapVectors _ _ c, visits_mapVectors _ _ b, Visit.mapVectors]
  | .repeatLoop b => by
    simp only [Node.mapVectors, Node.visits, List.map_cons, visits_mapVectors _ _ b,
      Visit.mapVectors]
  | .forLoop _ s b => by
    simp only [Node.mapVectors, Node.visits, List.map_cons, List.map_append,
      visits_mapVectors _ _ s, visits_mapVectors _ _ b, Visit.mapVectors]
  | .function fs b => by
    simp only [Node.mapVectors, Node.visits, List.map_cons, List.map_append,
      visitsFormals_mapVectors _ _ fs, visits_mapVectors _ _ b, Visit.mapVectors]
  | .assign _ v _ => by
    simp only [Node.mapVectors, Node.visits, List.map_cons, visits_mapVectors _ _ v,
      Visit.mapVectors]
  | .binary _ l r => by
    simp only [Node.mapVectors, Node.visits, List.map_cons, List.map_append,
      visits_mapVectors _ _ l, visits_mapVectors _ _ r, Visit.mapVectors]
  | .unary _ x => by
    simp only [Node.mapVectors, Node.visits, List.map_cons, visits_mapVectors _ _ x,
      Visit.mapVectors]
  | .index b as _ => by
    simp only [Node.mapVectors, Node.visits, List.map_cons, List.map_append,
      visits_mapVectors _ _ b, visitsArguments_mapVectors _ _ as, Visit.mapVectors]
  | .field b _ => by
    simp only [Node.mapVectors, Node.visits, List.map_cons, visits_mapVectors _ _ b,
      Visit.mapVectors]
  | .nextLoop => rfl
  | .breakLoop => rfl

theorem visitsArguments_mapVectors (spliced : Bool) (d : Nat) :
    ∀ as : List (Argument (Expression V)),
    Node.visitsArguments spliced d (mapVectorsOfArguments f as) =
      (Node.visitsArguments spliced d as).map (Visit.mapVectors f)
  | [] => rfl
  | ⟨_, none⟩ :: as => by
    simp only [mapVectorsOfArguments, Node.visitsArguments, visitsArguments_mapVectors _ _ as]
  | ⟨_, some n⟩ :: as => by
    simp only [mapVectorsOfArguments, Node.visitsArguments, visitsArguments_mapVectors _ _ as,
      Node.isDots_mapVectors, visits_mapVectors _ _ n, List.map_append]
    split <;> rfl

theorem visitsNodes_mapVectors (spliced : Bool) (d : Nat) : ∀ ns : List (Expression V),
    Node.visitsNodes spliced d (mapVectorsOfNodes f ns) =
      (Node.visitsNodes spliced d ns).map (Visit.mapVectors f)
  | [] => rfl
  | n :: ns => by
    simp only [mapVectorsOfNodes, Node.visitsNodes, visits_mapVectors _ _ n,
      visitsNodes_mapVectors _ _ ns, List.map_append]

theorem visitsFormals_mapVectors (spliced : Bool) (d : Nat) :
    ∀ fs : List (Formal (Expression V)),
    Node.visitsFormals spliced d (mapVectorsOfFormals f fs) =
      (Node.visitsFormals spliced d fs).map (Visit.mapVectors f)
  | [] => rfl
  | ⟨_, none⟩ :: fs => by
    simp only [mapVectorsOfFormals, Node.visitsFormals, visitsFormals_mapVectors _ _ fs]
  | ⟨_, some n⟩ :: fs => by
    simp only [mapVectorsOfFormals, Node.visitsFormals, visits_mapVectors _ _ n,
      visitsFormals_mapVectors _ _ fs, List.map_append]

end

theorem refusal?_mapLookup (σ : Symbol → Option (Value V)) (name : Symbol) :
    refusal? (mapLookup f σ) name = (refusal? σ name).map (Fault.mapVectors f) := by
  unfold refusal? mapLookup
  cases σ name with
  | none => rfl
  | some v =>
    simp only [Option.map_some, Value.target?_mapVectors]
    split <;> rfl

theorem headFault?_mapVectors (σ : Symbol → Option (Value V)) (n : Expression V) :
    (n.mapVectors f).headFault? (mapLookup f σ) = (n.headFault? σ).map (Fault.mapVectors f) := by
  cases n with
  | call g as => exact refusal?_mapLookup f σ g
  | ifElse c t e => cases e <;> rfl
  | _ => rfl

def Rules.mapVectors (r : Rules V) : Rules W := ⟨mapLookup f r.find?, r.limit⟩

theorem offence?_mapVectors (r : Rules V) (v : Visit (Value V)) :
    (v.mapVectors f).offence? (r.mapVectors f) = (v.offence? r).map (Fault.mapVectors f) := by
  unfold Visit.offence?
  simp only [Rules.mapVectors, Visit.mapVectors, headFault?_mapVectors]
  split <;> rfl

theorem firstOffence?_mapVectors (r : Rules V) (vs : List (Visit (Value V))) :
    firstOffence? (r.mapVectors f) (vs.map (Visit.mapVectors f)) =
      (firstOffence? r vs).map (Fault.mapVectors f) := by
  induction vs with
  | nil => rfl
  | cons v vs ih =>
    rw [List.map_cons, firstOffence?_cons, firstOffence?_cons, ih, offence?_mapVectors]
    cases v.offence? r <;> rfl

theorem apply_mapVectors {s : Substitution V} {t : Substitution W} {o : Objects (Value V)}
    {p : Objects (Value W)} (hl : t.limit = s.limit)
    (hf : t.source.find? p = mapLookup f (s.source.find? o)) (n : Expression V) :
    (t.apply p (n.mapVectors f)).1 =
      match (s.apply o n).1 with
      | .ok m => .ok (m.mapVectors f)
      | .error e => .error (e.mapVectors f) := by
  have hr : t.rules p = (s.rules o).mapVectors f := by
    simp only [Substitution.rules, Rules.mapVectors, hl, hf]
  have hv : t.visits p (n.mapVectors f) = (s.visits o n).map (Visit.mapVectors f) := by
    rw [Substitution.visits, hf, bindsBundle_mapLookup, visits_mapVectors]
    rfl
  rw [Substitution.apply_fst, Substitution.apply_fst, hr, hv, firstOffence?_mapVectors, hf,
    graft_mapVectors]
  cases firstOffence? (s.rules o) (s.visits o n) <;> rfl

end Map

end Deferred
