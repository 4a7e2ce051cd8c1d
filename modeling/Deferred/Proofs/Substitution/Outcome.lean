import Deferred.Proofs.Duplicate

/-!
# The outcome of a substitution

`Node.visits` lists the nodes that a substitution comes to, in pre-order with their depths, and
`Visit.offence?` says what is wrong with one of them. A substitution ends with the first offence, or
with `Node.graft` of the expression, which knows no limit.
-/
set_option autoImplicit false

namespace Deferred

variable {V : Kind → Type}

/-- A node that a walk comes to. The root of an expression stands at depth one. -/
structure Visit (α : Type) where
  depth : Nat
  node : Node α

theorem bind_bundle?_eq_some_iff {b : Option (Value V)} {entries : List (Argument (Value V))} :
    b.bind Value.bundle? = some entries ↔ b = some (.bundle entries) := by
  constructor
  · intro h
    obtain ⟨v, rfl, hv⟩ := Option.bind_eq_some_iff.1 h
    cases v with
    | bundle es => rw [Option.some.inj hv]
    | _ => simp [Value.bundle?] at hv
  · rintro rfl
    rfl

def bindsBundle (σ : Symbol → Option (Value V)) : Bool :=
  ((σ Symbol.dots).bind Value.bundle?).isSome

/-- Why a binding cannot give a name to a call head, if it cannot. -/
def refusal? (σ : Symbol → Option (Value V)) (function : Symbol) : Option (Fault (Value V)) :=
  match σ function with
  | some v => if v.target?.isSome then none else some (.targetNotName function v)
  | none => none

/-- What is wrong with the head of a node, if it is a call. -/
def Node.headFault? (σ : Symbol → Option (Value V)) : Expression V → Option (Fault (Value V))
  | .call f _ => refusal? σ f
  | _ => none

def Visit.offence? (r : Rules V) (v : Visit (Value V)) : Option (Fault (Value V)) :=
  if r.limit < v.depth then some (.tooDeep r.limit) else v.node.headFault? r.find?

def firstOffence? (r : Rules V) (vs : List (Visit (Value V))) : Option (Fault (Value V)) :=
  vs.findSome? (Visit.offence? r)

namespace Node

variable {α : Type}

def isDots (n : Node α) : Bool := n.symbol? = some Symbol.dots

mutual

/-- The nodes of an expression in pre-order, with the root at depth `d`. Arguments that are exactly
`...` are left out if they are `spliced`. -/
def visits (spliced : Bool) (d : Nat) : Node α → List (Visit α)
  | .constant v => [⟨d, .constant v⟩]
  | .symbol name => [⟨d, .symbol name⟩]
  | .call f as => ⟨d, .call f as⟩ :: visitsArguments spliced (d + 1) as
  | .block ss => ⟨d, .block ss⟩ :: visitsNodes spliced (d + 1) ss
  | .ifElse c t none => ⟨d, .ifElse c t none⟩ :: (visits spliced (d + 1) c ++
      visits spliced (d + 1) t)
  | .ifElse c t (some e) => ⟨d, .ifElse c t (some e)⟩ :: (visits spliced (d + 1) c ++
      (visits spliced (d + 1) t ++ visits spliced (d + 1) e))
  | .whileLoop c b => ⟨d, .whileLoop c b⟩ :: (visits spliced (d + 1) c ++
      visits spliced (d + 1) b)
  | .repeatLoop b => ⟨d, .repeatLoop b⟩ :: visits spliced (d + 1) b
  | .forLoop x s b => ⟨d, .forLoop x s b⟩ :: (visits spliced (d + 1) s ++
      visits spliced (d + 1) b)
  | .function fs b => ⟨d, .function fs b⟩ :: (visitsFormals spliced (d + 1) fs ++
      visits spliced (d + 1) b)
  | .assign x v isSuper => ⟨d, .assign x v isSuper⟩ :: visits spliced (d + 1) v
  | .binary op l m => ⟨d, .binary op l m⟩ :: (visits spliced (d + 1) l ++
      visits spliced (d + 1) m)
  | .unary op x => ⟨d, .unary op x⟩ :: visits spliced (d + 1) x
  | .index b as exact => ⟨d, .index b as exact⟩ :: (visits spliced (d + 1) b ++
      visitsArguments spliced (d + 1) as)
  | .field b x => ⟨d, .field b x⟩ :: visits spliced (d + 1) b
  | .nextLoop => [⟨d, .nextLoop⟩]
  | .breakLoop => [⟨d, .breakLoop⟩]

def visitsArguments (spliced : Bool) (d : Nat) : List (Argument (Node α)) → List (Visit α)
  | [] => []
  | ⟨_, none⟩ :: as => visitsArguments spliced d as
  | ⟨_, some n⟩ :: as =>
    (if spliced && n.isDots then [] else visits spliced d n) ++ visitsArguments spliced d as

def visitsNodes (spliced : Bool) (d : Nat) : List (Node α) → List (Visit α)
  | [] => []
  | n :: ns => visits spliced d n ++ visitsNodes spliced d ns

def visitsFormals (spliced : Bool) (d : Nat) : List (Formal (Node α)) → List (Visit α)
  | [] => []
  | ⟨_, none⟩ :: fs => visitsFormals spliced d fs
  | ⟨_, some n⟩ :: fs => visits spliced d n ++ visitsFormals spliced d fs

end

/-- The entries that replace an argument value, if it is `...` and that is bound to a bundle. -/
def bundle? (σ : Symbol → Option (Value V)) (n : Expression V) :
    Option (List (Argument (Value V))) :=
  if n.isDots then (σ Symbol.dots).bind Value.bundle? else none

theorem isSome_bundle? (σ : Symbol → Option (Value V)) (n : Expression V) :
    (n.bundle? σ).isSome = (bindsBundle σ && n.isDots) := by
  by_cases h : n.isDots <;> simp [bundle?, bindsBundle, h]

theorem isDots_of_bundle?_eq_some {σ : Symbol → Option (Value V)} {n : Expression V}
    {entries : List (Argument (Value V))} (h : n.bundle? σ = some entries) : n.isDots = true := by
  by_cases hd : n.isDots <;> simp_all [bundle?]

theorem bind_of_bundle?_eq_some {σ : Symbol → Option (Value V)} {n : Expression V}
    {entries : List (Argument (Value V))} (h : n.bundle? σ = some entries) :
    (σ Symbol.dots).bind Value.bundle? = some entries := by
  rw [bundle?, if_pos (isDots_of_bundle?_eq_some h)] at h
  exact h

mutual

/-- The expression with the bindings of a look-up put in. A call head whose binding denotes no name
stays. -/
def graft (σ : Symbol → Option (Value V)) : Expression V → Expression V
  | .constant v => .constant v
  | .symbol name => ((σ name).map Value.tree).getD (.symbol name)
  | .call f as => .call (((σ f).bind Value.target?).getD f) (graftArguments σ as)
  | .block ss => .block (graftNodes σ ss)
  | .ifElse c t none => .ifElse (graft σ c) (graft σ t) none
  | .ifElse c t (some e) => .ifElse (graft σ c) (graft σ t) (some (graft σ e))
  | .whileLoop c b => .whileLoop (graft σ c) (graft σ b)
  | .repeatLoop b => .repeatLoop (graft σ b)
  | .forLoop x s b => .forLoop x (graft σ s) (graft σ b)
  | .function fs b => .function (graftFormals σ fs) (graft σ b)
  | .assign x v isSuper => .assign x (graft σ v) isSuper
  | .binary op l m => .binary op (graft σ l) (graft σ m)
  | .unary op x => .unary op (graft σ x)
  | .index b as exact => .index (graft σ b) (graftArguments σ as) exact
  | .field b x => .field (graft σ b) x
  | .nextLoop => .nextLoop
  | .breakLoop => .breakLoop

def graftArguments (σ : Symbol → Option (Value V)) :
    List (Argument (Expression V)) → List (Argument (Expression V))
  | [] => []
  | ⟨name, none⟩ :: as => ⟨name, none⟩ :: graftArguments σ as
  | ⟨name, some n⟩ :: as =>
    (match bundle? σ n with
      | some entries => entries.map Argument.ofEntry
      | none => [⟨name, some (graft σ n)⟩]) ++ graftArguments σ as

def graftNodes (σ : Symbol → Option (Value V)) : List (Expression V) → List (Expression V)
  | [] => []
  | n :: ns => graft σ n :: graftNodes σ ns

def graftFormals (σ : Symbol → Option (Value V)) :
    List (Formal (Expression V)) → List (Formal (Expression V))
  | [] => []
  | ⟨name, none⟩ :: fs => ⟨name, none⟩ :: graftFormals σ fs
  | ⟨name, some n⟩ :: fs => ⟨name, some (graft σ n)⟩ :: graftFormals σ fs

end

end Node

/-- The result of a step that either meets a fault or gives a value. -/
def settled {α : Type} (fault : Option (Fault (Value V))) (a : α) : Except (Fault (Value V)) α :=
  match fault with
  | some e => .error e
  | none => .ok a

namespace Walking

variable {α β : Type}

/-- Started at depth `d`, the step ends there, with `fault` or else with `a`. -/
def Yields (x : Walking V α) (d : Nat) (fault : Option (Fault (Value V))) (a : α) : Prop :=
  ∀ ls, ∃ ls', x ⟨d, ls⟩ = (settled fault a, ⟨d, ls'⟩)

theorem yields_pure (d : Nat) (a : α) : Yields (V := V) (Pure.pure a) d none a :=
  fun ls => ⟨ls, rfl⟩

theorem yields_fail (d : Nat) (e : Fault (Value V)) (a : α) : Yields (fail e) d (some e) a :=
  fun ls => ⟨ls, rfl⟩

theorem Yields.bind {x : Walking V α} {f : α → Walking V β} {d : Nat}
    {e e' : Option (Fault (Value V))} {a : α} {b : β} (hx : Yields x d e a)
    (hf : Yields (f a) d e' b) : Yields (x >>= f) d (e.or e') b := by
  intro ls
  obtain ⟨ls₁, h₁⟩ := hx ls
  cases e with
  | some e => exact ⟨ls₁, bind_of_error h₁ f⟩
  | none =>
    obtain ⟨ls₂, h₂⟩ := hf ls₁
    exact ⟨ls₂, (bind_of_ok h₁ f).trans h₂⟩

theorem Yields.bind_none {x : Walking V α} {f : α → Walking V β} {d : Nat}
    {e : Option (Fault (Value V))} {a : α} {b : β} (hx : Yields x d none a)
    (hf : Yields (f a) d e b) : Yields (x >>= f) d e b := by
  simpa using hx.bind hf

theorem Yields.map {x : Walking V α} {d : Nat} {e : Option (Fault (Value V))} {a : α}
    (hx : Yields x d e a) (f : α → β) :
    Yields (x >>= fun a => Pure.pure (f a)) d e (f a) := by
  simpa using hx.bind (f := fun a => Pure.pure (f a)) (yields_pure d (f a))

theorem Yields.nested {x : Walking V α} {d : Nat} {e : Option (Fault (Value V))} {a : α}
    (limit : Nat) (hx : Yields x (d + 1) e a) :
    Yields (Walking.nested limit x) d (if limit < d + 1 then some (.tooDeep limit) else e) a := by
  intro ls
  obtain ⟨ls₁, h₁⟩ := hx ls
  by_cases h : limit ≤ d
  · refine ⟨ls, ?_⟩
    rw [nested_of_le h, if_pos (by omega)]
    rfl
  · refine ⟨ls₁, ?_⟩
    rw [nested_of_lt (by simpa using h), if_neg (by omega)]
    simp [h₁]

end Walking

section Walk

variable (r : Rules V)

theorem firstOffence?_cons (v : Visit (Value V)) (vs : List (Visit (Value V))) :
    firstOffence? r (v :: vs) = (v.offence? r).or (firstOffence? r vs) := by
  simp only [firstOffence?, List.findSome?_cons]
  cases v.offence? r <;> rfl

theorem firstOffence?_append (vs ws : List (Visit (Value V))) :
    firstOffence? r (vs ++ ws) = (firstOffence? r vs).or (firstOffence? r ws) :=
  List.findSome?_append

theorem offence?_or (d : Nat) (n : Expression V) (e : Option (Fault (Value V))) :
    ((Visit.mk d n).offence? r).or e =
      if r.limit < d then some (.tooDeep r.limit) else (n.headFault? r.find?).or e := by
  by_cases h : r.limit < d <;> simp [Visit.offence?, h]

namespace Rules

open Walking

theorem look_yields (d : Nat) (name : Symbol) : Yields (r.look name) d none (r.find? name) :=
  fun _ => ⟨_, rfl⟩

theorem bundleFor_yields (d : Nat) (n : Expression V) :
    Yields (r.bundleFor n) d none (n.bundle? r.find?) := by
  unfold bundleFor Node.bundle? Node.isDots
  by_cases h : n.symbol? = some Symbol.dots
  · simp only [h, if_true, decide_true]
    exact (r.look_yields d Symbol.dots).map fun b => b.bind Value.bundle?
  · simp only [h, if_false, decide_false]
    exact yields_pure d none

theorem head_yields (d : Nat) (f : Symbol) :
    Yields (r.head f) d (refusal? r.find? f) (((r.find? f).bind Value.target?).getD f) := by
  refine (r.look_yields d f).bind_none ?_
  unfold refusal?
  cases r.find? f with
  | none => exact yields_pure d f
  | some v =>
    cases h : v.target? with
    | none =>
      simp only [h]
      exact yields_fail d _ _
    | some name =>
      simp only [h, Option.isSome_some, if_true, Option.bind_some, Option.getD_some]
      exact yields_pure d name

mutual

theorem substitute_yields (d : Nat) : ∀ n : Expression V,
    Yields (r.substitute n) d
      (firstOffence? r (n.visits (bindsBundle r.find?) (d + 1))) (n.graft r.find?)
  | .constant v => by
    rw [substitute, Node.visits, firstOffence?_cons, offence?_or]
    refine Yields.nested r.limit ?_
    rw [Node.duplicate_eq]
    exact yields_pure _ _
  | .symbol name => by
    rw [substitute, Node.visits, firstOffence?_cons, offence?_or]
    refine Yields.nested r.limit ((r.look_yields _ name).bind_none ?_)
    rw [Node.graft]
    cases r.find? name <;> exact yields_pure _ _
  | .call f as => by
    rw [substitute, Node.visits, firstOffence?_cons, offence?_or]
    refine Yields.nested r.limit ((r.head_yields _ f).bind ?_)
    exact (substituteArguments_yields (d + 1) as).map _
  | .block ss => by
    rw [substitute, Node.visits, firstOffence?_cons, offence?_or]
    exact Yields.nested r.limit ((substituteNodes_yields (d + 1) ss).map _)
  | .ifElse c t none => by
    rw [substitute, Node.visits, firstOffence?_cons, firstOffence?_append, offence?_or]
    refine Yields.nested r.limit ((substitute_yields (d + 1) c).bind ?_)
    exact (substitute_yields (d + 1) t).map _
  | .ifElse c t (some e) => by
    rw [substitute, Node.visits, firstOffence?_cons, firstOffence?_append, firstOffence?_append,
      offence?_or]
    refine Yields.nested r.limit ((substitute_yields (d + 1) c).bind ?_)
    exact (substitute_yields (d + 1) t).bind ((substitute_yields (d + 1) e).map _)
  | .whileLoop c b => by
    rw [substitute, Node.visits, firstOffence?_cons, firstOffence?_append, offence?_or]
    refine Yields.nested r.limit ((substitute_yields (d + 1) c).bind ?_)
    exact (substitute_yields (d + 1) b).map _
  | .repeatLoop b => by
    rw [substitute, Node.visits, firstOffence?_cons, offence?_or]
    exact Yields.nested r.limit ((substitute_yields (d + 1) b).map _)
  | .forLoop x s b => by
    rw [substitute, Node.visits, firstOffence?_cons, firstOffence?_append, offence?_or]
    refine Yields.nested r.limit ((substitute_yields (d + 1) s).bind ?_)
    exact (substitute_yields (d + 1) b).map _
  | .function fs b => by
    rw [substitute, Node.visits, firstOffence?_cons, firstOffence?_append, offence?_or]
    refine Yields.nested r.limit ((substituteFormals_yields (d + 1) fs).bind ?_)
    exact (substitute_yields (d + 1) b).map _
  | .assign x v isSuper => by
    rw [substitute, Node.visits, firstOffence?_cons, offence?_or]
    exact Yields.nested r.limit ((substitute_yields (d + 1) v).map _)
  | .binary op l m => by
    rw [substitute, Node.visits, firstOffence?_cons, firstOffence?_append, offence?_or]
    refine Yields.nested r.limit ((substitute_yields (d + 1) l).bind ?_)
    exact (substitute_yields (d + 1) m).map _
  | .unary op x => by
    rw [substitute, Node.visits, firstOffence?_cons, offence?_or]
    exact Yields.nested r.limit ((substitute_yields (d + 1) x).map _)
  | .index b as exact => by
    rw [substitute, Node.visits, firstOffence?_cons, firstOffence?_append, offence?_or]
    refine Yields.nested r.limit ((substitute_yields (d + 1) b).bind ?_)
    exact (substituteArguments_yields (d + 1) as).map _
  | .field b x => by
    rw [substitute, Node.visits, firstOffence?_cons, offence?_or]
    exact Yields.nested r.limit ((substitute_yields (d + 1) b).map _)
  | .nextLoop => by
    rw [substitute, Node.visits, firstOffence?_cons, offence?_or]
    exact Yields.nested r.limit (yields_pure _ _)
  | .breakLoop => by
    rw [substitute, Node.visits, firstOffence?_cons, offence?_or]
    exact Yields.nested r.limit (yields_pure _ _)

theorem substituteArguments_yields (d : Nat) : ∀ as : List (Argument (Expression V)),
    Yields (r.substituteArguments as) d
      (firstOffence? r (Node.visitsArguments (bindsBundle r.find?) (d + 1) as))
      (Node.graftArguments r.find? as)
  | [] => yields_pure d []
  | ⟨name, none⟩ :: as => (substituteArguments_yields d as).map _
  | ⟨name, some n⟩ :: as => by
    rw [substituteArguments, Node.visitsArguments, Node.graftArguments]
    refine (r.bundleFor_yields d n).bind_none ?_
    rw [← Node.isSome_bundle?]
    cases n.bundle? r.find? with
    | some entries => exact (substituteArguments_yields d as).map _
    | none =>
      simp only [Option.isSome_none, Bool.false_eq_true, if_false, firstOffence?_append]
      exact (substitute_yields d n).bind ((substituteArguments_yields d as).map _)

theorem substituteNodes_yields (d : Nat) : ∀ ns : List (Expression V),
    Yields (r.substituteNodes ns) d
      (firstOffence? r (Node.visitsNodes (bindsBundle r.find?) (d + 1) ns))
      (Node.graftNodes r.find? ns)
  | [] => yields_pure d []
  | n :: ns => by
    rw [substituteNodes, Node.visitsNodes, Node.graftNodes, firstOffence?_append]
    exact (substitute_yields d n).bind ((substituteNodes_yields d ns).map _)

theorem substituteFormals_yields (d : Nat) : ∀ fs : List (Formal (Expression V)),
    Yields (r.substituteFormals fs) d
      (firstOffence? r (Node.visitsFormals (bindsBundle r.find?) (d + 1) fs))
      (Node.graftFormals r.find? fs)
  | [] => yields_pure d []
  | ⟨name, none⟩ :: fs => (substituteFormals_yields d fs).map _
  | ⟨name, some n⟩ :: fs => by
    rw [substituteFormals, Node.visitsFormals, Node.graftFormals, firstOffence?_append]
    exact (substitute_yields d n).bind ((substituteFormals_yields d fs).map _)

end

end Rules

end Walk

/-- No call among the visits has a head that is bound to something that denotes no name. -/
def Fits (σ : Symbol → Option (Value V)) (vs : List (Visit (Value V))) : Prop :=
  ∀ v ∈ vs, v.node.headFault? σ = none

theorem fits_nil {σ : Symbol → Option (Value V)} : Fits σ [] := by simp [Fits]

theorem fits_cons {σ : Symbol → Option (Value V)} {v : Visit (Value V)}
    {vs : List (Visit (Value V))} :
    Fits σ (v :: vs) ↔ v.node.headFault? σ = none ∧ Fits σ vs :=
  List.forall_mem_cons

theorem fits_append {σ : Symbol → Option (Value V)} {vs ws : List (Visit (Value V))} :
    Fits σ (vs ++ ws) ↔ Fits σ vs ∧ Fits σ ws :=
  List.forall_mem_append

theorem fits_cons_of_headFault? {σ : Symbol → Option (Value V)} {d : Nat} {n : Expression V}
    {vs : List (Visit (Value V))} (h : n.headFault? σ = none) :
    Fits σ (⟨d, n⟩ :: vs) ↔ Fits σ vs := by
  rw [fits_cons]
  exact and_iff_right h

theorem headFault?_eq_some {σ : Symbol → Option (Value V)} {n : Expression V}
    {e : Fault (Value V)} (h : n.headFault? σ = some e) : ∃ f v, e = .targetNotName f v := by
  cases n with
  | call f as =>
    simp only [Node.headFault?, refusal?] at h
    split at h
    · split at h
      · simp at h
      · exact ⟨_, _, (Option.some.inj h).symm⟩
    · simp at h
  | _ => simp [Node.headFault?] at h

theorem exists_depth_bound {α : Type} (vs : List (Visit α)) : ∃ b, ∀ v ∈ vs, v.depth ≤ b := by
  induction vs with
  | nil => exact ⟨0, by simp⟩
  | cons v vs ih =>
    obtain ⟨b, hb⟩ := ih
    refine ⟨v.depth + b, fun u hu => ?_⟩
    rcases List.mem_cons.1 hu with rfl | hu
    · omega
    · have := hb u hu
      omega

namespace Substitution

variable (s : Substitution V) (o : Objects (Value V)) (n : Expression V)

/-- The nodes that a substitution comes to, in order. -/
def visits : List (Visit (Value V)) := n.visits (bindsBundle (s.source.find? o)) 1

theorem apply_fst :
    (s.apply o n).1 =
      settled (firstOffence? (s.rules o) (s.visits o n)) (n.graft (s.source.find? o)) := by
  obtain ⟨ls, h⟩ := (s.rules o).substitute_yields 0 n []
  exact congrArg Prod.fst h

theorem apply_eq_error_iff (e : Fault (Value V)) :
    (s.apply o n).1 = .error e ↔ firstOffence? (s.rules o) (s.visits o n) = some e := by
  rw [apply_fst]
  cases firstOffence? (s.rules o) (s.visits o n) <;> simp [settled]

theorem apply_eq_ok_iff (t : Expression V) :
    (s.apply o n).1 = .ok t ↔
      (∀ v ∈ s.visits o n, v.offence? (s.rules o) = none) ∧ n.graft (s.source.find? o) = t := by
  rw [apply_fst, ← List.findSome?_eq_none_iff]
  change settled (firstOffence? _ _) _ = _ ↔ firstOffence? _ _ = none ∧ _
  cases firstOffence? (s.rules o) (s.visits o n) <;> simp [settled]

theorem apply_of_ne_tooDeep (hn : (s.apply o n).1 ≠ .error (.tooDeep s.limit)) :
    Fits (s.source.find? o) (s.visits o n) ∧ (s.apply o n).1 = .ok (n.graft (s.source.find? o)) ∨
      ¬ Fits (s.source.find? o) (s.visits o n) ∧
        ∃ f v, (s.apply o n).1 = .error (.targetNotName f v) := by
  cases hf : firstOffence? (s.rules o) (s.visits o n) with
  | none =>
    left
    have hv := List.findSome?_eq_none_iff.1 hf
    refine ⟨fun v hm => ?_, (apply_eq_ok_iff s o n _).2 ⟨hv, rfl⟩⟩
    have ho := hv v hm
    unfold Visit.offence? at ho
    split at ho
    · simp at ho
    · exact ho
  | some e =>
    right
    have he := (apply_eq_error_iff s o n e).2 hf
    obtain ⟨v, hm, ho⟩ := List.exists_of_findSome?_eq_some hf
    unfold Visit.offence? at ho
    split at ho
    · rw [Option.some.injEq] at ho
      exact absurd (he.trans (by rw [← ho]; rfl)) hn
    · obtain ⟨f, w, rfl⟩ := headFault?_eq_some ho
      refine ⟨fun hfit => ?_, f, w, he⟩
      have hnone := hfit v hm
      exact absurd (ho.symm.trans hnone) (by simp)

theorem apply_ne_tooDeep {s : Substitution V} (hd : ∀ v ∈ s.visits o n, v.depth ≤ s.limit) :
    (s.apply o n).1 ≠ .error (.tooDeep s.limit) := by
  intro he
  obtain ⟨v, hm, ho⟩ := List.exists_of_findSome?_eq_some ((apply_eq_error_iff s o n _).1 he)
  have hle := hd v hm
  rw [Visit.offence?, if_neg (by simpa [rules] using hle)] at ho
  obtain ⟨f, w, h⟩ := headFault?_eq_some ho
  exact absurd h (by simp)

/-- A substitution succeeds unless a node that it comes to offends, and fails with the first offence
in pre-order. The tree it gives does not depend on the limit. -/
theorem apply_outcome (source : Source (Value V)) :
    ∃ t, ∀ limit, let s : Substitution V := ⟨source, limit⟩
      ((s.apply o n).1 = .ok t ↔ ∀ v ∈ s.visits o n, v.offence? (s.rules o) = none) ∧
      (∀ t', (s.apply o n).1 = .ok t' → t' = t) ∧
      ∀ e, (s.apply o n).1 = .error e ↔
        ∃ before v after, s.visits o n = before ++ v :: after ∧
          v.offence? (s.rules o) = some e ∧ ∀ u ∈ before, u.offence? (s.rules o) = none := by
  refine ⟨n.graft (source.find? o), fun limit => ⟨?_, ?_, ?_⟩⟩
  · rw [apply_eq_ok_iff]
    exact and_iff_left rfl
  · intro t' ht
    exact ((apply_eq_ok_iff _ o n t').1 ht).2.symm
  · intro e
    rw [apply_eq_error_iff, firstOffence?, List.findSome?_eq_some_iff]

/-- The first call fits, and the second has a head bound to null. -/
theorem apply_outcome_second_call :
    let n : Expression := .block [.call ⟨"f"⟩ [], .call ⟨"g"⟩ []]
    let s : Substitution := ⟨.list (.labelled [⟨some ⟨"g"⟩, .null⟩]), 2⟩
    let e : Fault := .targetNotName ⟨"g"⟩ .null
    (s.apply Objects.empty n).1 = .error e ∧
      ∃ before v after, s.visits Objects.empty n = before ++ v :: after ∧
        v.offence? (s.rules Objects.empty) = some e ∧
        ∀ u ∈ before, u.offence? (s.rules Objects.empty) = none := by
  intro n s e
  have he : (s.apply Objects.empty n).1 = .error e := rfl
  obtain ⟨_, h⟩ := apply_outcome Objects.empty n s.source
  obtain ⟨_, _, herror⟩ := h s.limit
  exact ⟨he, (herror e).mp he⟩

end Substitution

end Deferred
