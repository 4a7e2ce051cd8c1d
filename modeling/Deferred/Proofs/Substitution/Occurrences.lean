import Deferred.Proofs.Substitution.Names

/-!
# What becomes of each name

`Node.occurrences` lists the places in an expression where a name stands for something, and
`Occurrence.contribution` the names that one such place gives to the result of a substitution. The
names of the result are these contributions one after another, so that nothing is lost, doubled or
moved and nothing in a tree that was put in is substituted again. Whether every call gets a name
depends on the heads among the occurrences.
-/
set_option autoImplicit false

namespace Deferred

variable {V : Kind → Type}

/-- A place in an expression where a name stands for something. -/
inductive Occurrence where
  | symbol (name : Symbol)
  | head (function : Symbol)
  /-- An argument that is exactly `...`. -/
  | rest
  deriving DecidableEq, Repr

def Occurrence.name : Occurrence → Symbol
  | symbol name => name
  | head function => function
  | rest => Symbol.dots

namespace Node

variable {α : Type}

mutual

/-- The occurrences of names from left to right, a head before its arguments. -/
def occurrences : Node α → List Occurrence
  | .constant _ => []
  | .symbol name => [.symbol name]
  | .call f as => .head f :: occurrencesArguments as
  | .block ss => occurrencesNodes ss
  | .ifElse c t none => occurrences c ++ occurrences t
  | .ifElse c t (some e) => occurrences c ++ occurrences t ++ occurrences e
  | .whileLoop c b => occurrences c ++ occurrences b
  | .repeatLoop b => occurrences b
  | .forLoop _ s b => occurrences s ++ occurrences b
  | .function fs b => occurrencesFormals fs ++ occurrences b
  | .assign _ v _ => occurrences v
  | .binary _ l m => occurrences l ++ occurrences m
  | .unary _ x => occurrences x
  | .index b as _ => occurrences b ++ occurrencesArguments as
  | .field b _ => occurrences b
  | .nextLoop => []
  | .breakLoop => []

def occurrencesArguments : List (Argument (Node α)) → List Occurrence
  | [] => []
  | ⟨_, none⟩ :: as => occurrencesArguments as
  | ⟨_, some n⟩ :: as => (if n.isDots then [.rest] else occurrences n) ++ occurrencesArguments as

def occurrencesNodes : List (Node α) → List Occurrence
  | [] => []
  | n :: ns => occurrences n ++ occurrencesNodes ns

def occurrencesFormals : List (Formal (Node α)) → List Occurrence
  | [] => []
  | ⟨_, none⟩ :: fs => occurrencesFormals fs
  | ⟨_, some n⟩ :: fs => occurrences n ++ occurrencesFormals fs

end

mutual

theorem map_name_occurrences : ∀ n : Node α, n.occurrences.map Occurrence.name = n.names
  | .constant _ => rfl
  | .symbol _ => rfl
  | .call f as => by
    rw [occurrences, names, List.map_cons, map_name_occurrencesArguments as]
    rfl
  | .block ss => map_name_occurrencesNodes ss
  | .ifElse c t none => by
    rw [occurrences, names, List.map_append, map_name_occurrences c, map_name_occurrences t]
  | .ifElse c t (some e) => by
    rw [occurrences, names, List.map_append, List.map_append, map_name_occurrences c,
      map_name_occurrences t, map_name_occurrences e]
  | .whileLoop c b => by
    rw [occurrences, names, List.map_append, map_name_occurrences c, map_name_occurrences b]
  | .repeatLoop b => map_name_occurrences b
  | .forLoop _ s b => by
    rw [occurrences, names, List.map_append, map_name_occurrences s, map_name_occurrences b]
  | .function fs b => by
    rw [occurrences, names, List.map_append, map_name_occurrencesFormals fs,
      map_name_occurrences b]
  | .assign _ v _ => map_name_occurrences v
  | .binary _ l m => by
    rw [occurrences, names, List.map_append, map_name_occurrences l, map_name_occurrences m]
  | .unary _ x => map_name_occurrences x
  | .index b as _ => by
    rw [occurrences, names, List.map_append, map_name_occurrences b,
      map_name_occurrencesArguments as]
  | .field b _ => map_name_occurrences b
  | .nextLoop => rfl
  | .breakLoop => rfl

theorem map_name_occurrencesArguments : ∀ as : List (Argument (Node α)),
    (occurrencesArguments as).map Occurrence.name = namesArguments as
  | [] => rfl
  | ⟨_, none⟩ :: as => map_name_occurrencesArguments as
  | ⟨_, some n⟩ :: as => by
    rw [occurrencesArguments, namesArguments, List.map_append, map_name_occurrencesArguments as]
    by_cases hd : n.isDots
    · rw [if_pos hd, names_of_isDots hd]
      rfl
    · rw [if_neg hd, map_name_occurrences n]

theorem map_name_occurrencesNodes : ∀ ns : List (Node α),
    (occurrencesNodes ns).map Occurrence.name = namesNodes ns
  | [] => rfl
  | n :: ns => by
    rw [occurrencesNodes, namesNodes, List.map_append, map_name_occurrences n,
      map_name_occurrencesNodes ns]

theorem map_name_occurrencesFormals : ∀ fs : List (Formal (Node α)),
    (occurrencesFormals fs).map Occurrence.name = namesFormals fs
  | [] => rfl
  | ⟨_, none⟩ :: fs => map_name_occurrencesFormals fs
  | ⟨_, some n⟩ :: fs => by
    rw [occurrencesFormals, namesFormals, List.map_append, map_name_occurrences n,
      map_name_occurrencesFormals fs]

end

end Node

/-- The names that an entry of a bundle brings in where it is spliced. -/
def Argument.entryNames : Argument (Value V) → List Symbol
  | ⟨_, some v⟩ => v.tree.names
  | ⟨some name, none⟩ => [name]
  | ⟨none, none⟩ => []

theorem namesArguments_append {α : Type} (as bs : List (Argument (Node α))) :
    Node.namesArguments (as ++ bs) = Node.namesArguments as ++ Node.namesArguments bs := by
  induction as with
  | nil => rfl
  | cons a as ih =>
    obtain ⟨name, value⟩ := a
    cases value <;> simp [Node.namesArguments, ih]

theorem namesArguments_ofEntry (es : List (Argument (Value V))) :
    Node.namesArguments (es.map Argument.ofEntry) = es.flatMap Argument.entryNames := by
  induction es with
  | nil => rfl
  | cons e es ih =>
    rw [List.map_cons, List.flatMap_cons, ← ih]
    obtain ⟨_ | name, _ | v⟩ := e <;> rfl

/-- The names that a symbol gives way to, or the symbol itself if it is not bound. -/
def symbolNames (σ : Symbol → Option (Value V)) (name : Symbol) : List Symbol :=
  match σ name with
  | some v => v.tree.names
  | none => [name]

/-- The names that an occurrence gives to the result of a substitution. A head whose binding denotes
no name would stay, but then the substitution fails. -/
def Occurrence.contribution (σ : Symbol → Option (Value V)) : Occurrence → List Symbol
  | symbol name => symbolNames σ name
  | head function =>
    match σ function with
    | some v => [v.target?.getD function]
    | none => [function]
  | rest =>
    match (σ Symbol.dots).bind Value.bundle? with
    | some entries => entries.flatMap Argument.entryNames
    | none => symbolNames σ Symbol.dots

namespace Node

variable {σ : Symbol → Option (Value V)}

theorem names_graft_symbol (name : Symbol) :
    (graft σ (.symbol name)).names = symbolNames σ name := by
  rw [graft, symbolNames]
  cases σ name <;> rfl

theorem contribution_head (f : Symbol) :
    (Occurrence.head f).contribution σ = [((σ f).bind Value.target?).getD f] := by
  rw [Occurrence.contribution]
  cases σ f <;> rfl

mutual

theorem names_graft : ∀ n : Expression V,
    (n.graft σ).names = n.occurrences.flatMap (Occurrence.contribution σ)
  | .constant _ => rfl
  | .symbol name => by
    rw [names_graft_symbol, occurrences, List.flatMap_singleton]
    rfl
  | .call f as => by
    rw [graft, names, occurrences, List.flatMap_cons, contribution_head, names_graftArguments as]
    rfl
  | .block ss => names_graftNodes ss
  | .ifElse c t none => by
    rw [graft, names, occurrences, List.flatMap_append, names_graft c, names_graft t]
  | .ifElse c t (some e) => by
    rw [graft, names, occurrences, List.flatMap_append, List.flatMap_append, names_graft c,
      names_graft t, names_graft e]
  | .whileLoop c b => by
    rw [graft, names, occurrences, List.flatMap_append, names_graft c, names_graft b]
  | .repeatLoop b => names_graft b
  | .forLoop _ s b => by
    rw [graft, names, occurrences, List.flatMap_append, names_graft s, names_graft b]
  | .function fs b => by
    rw [graft, names, occurrences, List.flatMap_append, names_graftFormals fs, names_graft b]
  | .assign _ v _ => names_graft v
  | .binary _ l m => by
    rw [graft, names, occurrences, List.flatMap_append, names_graft l, names_graft m]
  | .unary _ x => names_graft x
  | .index b as _ => by
    rw [graft, names, occurrences, List.flatMap_append, names_graft b, names_graftArguments as]
  | .field b _ => names_graft b
  | .nextLoop => rfl
  | .breakLoop => rfl

theorem names_graftArguments : ∀ as : List (Argument (Expression V)),
    namesArguments (graftArguments σ as) =
      (occurrencesArguments as).flatMap (Occurrence.contribution σ)
  | [] => rfl
  | ⟨_, none⟩ :: as => names_graftArguments as
  | ⟨name, some n⟩ :: as => by
    rw [graftArguments, namesArguments_append, occurrencesArguments, List.flatMap_append,
      names_graftArguments as]
    congr 1
    by_cases hd : n.isDots
    · rw [if_pos hd, List.flatMap_singleton, Occurrence.contribution, bundle?, if_pos hd]
      cases hb : (σ Symbol.dots).bind Value.bundle? with
      | some entries => exact namesArguments_ofEntry entries
      | none =>
        obtain rfl := eq_symbol_of_isDots hd
        simp only [namesArguments, List.append_nil, names_graft_symbol]
    · have hb : n.bundle? σ = none := by simp [bundle?, hd]
      rw [if_neg hd, hb]
      simp only [namesArguments, List.append_nil, names_graft n]

theorem names_graftNodes : ∀ ns : List (Expression V),
    namesNodes (graftNodes σ ns) = (occurrencesNodes ns).flatMap (Occurrence.contribution σ)
  | [] => rfl
  | n :: ns => by
    rw [graftNodes, namesNodes, occurrencesNodes, List.flatMap_append, names_graft n,
      names_graftNodes ns]

theorem names_graftFormals : ∀ fs : List (Formal (Expression V)),
    namesFormals (graftFormals σ fs) = (occurrencesFormals fs).flatMap (Occurrence.contribution σ)
  | [] => rfl
  | ⟨_, none⟩ :: fs => names_graftFormals fs
  | ⟨_, some n⟩ :: fs => by
    rw [graftFormals, namesFormals, occurrencesFormals, List.flatMap_append, names_graft n,
      names_graftFormals fs]

end

end Node

/-- Every head that is bound is bound to something that denotes a name. -/
def HeadsNamed (σ : Symbol → Option (Value V)) (os : List Occurrence) : Prop :=
  ∀ f, .head f ∈ os → refusal? σ f = none

section HeadsNamed

variable {σ : Symbol → Option (Value V)}

theorem headsNamed_nil : HeadsNamed σ [] := fun _ h => nomatch h

theorem headsNamed_append {os ps : List Occurrence} :
    HeadsNamed σ (os ++ ps) ↔ HeadsNamed σ os ∧ HeadsNamed σ ps := by
  simp only [HeadsNamed, List.mem_append, or_imp, forall_and]

theorem headsNamed_head {f : Symbol} {os : List Occurrence} :
    HeadsNamed σ (.head f :: os) ↔ refusal? σ f = none ∧ HeadsNamed σ os := by
  simp only [HeadsNamed, List.mem_cons, Occurrence.head.injEq, or_imp, forall_and, forall_eq]

theorem headsNamed_singleton {o : Occurrence} (h : ∀ f, o ≠ .head f) : HeadsNamed σ [o] := by
  intro f hf
  exact absurd (List.mem_singleton.mp hf).symm (h f)

theorem refusal?_of_eq_none {f : Symbol} (h : σ f = none) : refusal? σ f = none := by
  rw [refusal?, h]

theorem headsNamed_of_unbound {os : List Occurrence} (h : Unbound σ (os.map Occurrence.name)) :
    HeadsNamed σ os := by
  intro f hf
  have hname : f ∈ os.map Occurrence.name := List.mem_map.mpr ⟨.head f, hf, rfl⟩
  exact refusal?_of_eq_none (h f hname)

theorem exists_target_of_refusal? {f : Symbol} {v : Value V} (h : refusal? σ f = none)
    (hv : σ f = some v) : ∃ name, v.target? = some name := by
  simp only [refusal?, hv] at h
  split at h
  · next ht => exact Option.isSome_iff_exists.mp ht
  · contradiction

end HeadsNamed

namespace Node

variable {σ : Symbol → Option (Value V)} {spliced : Bool}

mutual

/-- The heads that a walk comes to are those among the occurrences, whether or not arguments `...`
are spliced. -/
theorem fits_iff_headsNamed (d : Nat) : ∀ n : Expression V,
    Fits σ (n.visits spliced d) ↔ HeadsNamed σ n.occurrences
  | .constant _ => iff_of_true ((fits_cons_of_headFault? rfl).2 fits_nil) headsNamed_nil
  | .symbol _ =>
    iff_of_true ((fits_cons_of_headFault? rfl).2 fits_nil) (headsNamed_singleton (by simp))
  | .call f as => by
    rw [visits, occurrences, fits_cons, headsNamed_head, fits_iff_headsNamed_arguments _ as]
    rfl
  | .block ss => by
    rw [visits, occurrences, fits_cons_of_headFault? rfl, fits_iff_headsNamed_nodes _ ss]
  | .ifElse c t none => by
    rw [visits, occurrences, fits_cons_of_headFault? rfl, fits_append, headsNamed_append,
      fits_iff_headsNamed _ c, fits_iff_headsNamed _ t]
  | .ifElse c t (some e) => by
    rw [visits, occurrences, fits_cons_of_headFault? rfl, fits_append, fits_append,
      headsNamed_append, headsNamed_append, fits_iff_headsNamed _ c, fits_iff_headsNamed _ t,
      fits_iff_headsNamed _ e, and_assoc]
  | .whileLoop c b => by
    rw [visits, occurrences, fits_cons_of_headFault? rfl, fits_append, headsNamed_append,
      fits_iff_headsNamed _ c, fits_iff_headsNamed _ b]
  | .repeatLoop b => by
    rw [visits, occurrences, fits_cons_of_headFault? rfl, fits_iff_headsNamed _ b]
  | .forLoop _ s b => by
    rw [visits, occurrences, fits_cons_of_headFault? rfl, fits_append, headsNamed_append,
      fits_iff_headsNamed _ s, fits_iff_headsNamed _ b]
  | .function fs b => by
    rw [visits, occurrences, fits_cons_of_headFault? rfl, fits_append, headsNamed_append,
      fits_iff_headsNamed_formals _ fs, fits_iff_headsNamed _ b]
  | .assign _ v _ => by
    rw [visits, occurrences, fits_cons_of_headFault? rfl, fits_iff_headsNamed _ v]
  | .binary _ l m => by
    rw [visits, occurrences, fits_cons_of_headFault? rfl, fits_append, headsNamed_append,
      fits_iff_headsNamed _ l, fits_iff_headsNamed _ m]
  | .unary _ x => by
    rw [visits, occurrences, fits_cons_of_headFault? rfl, fits_iff_headsNamed _ x]
  | .index b as _ => by
    rw [visits, occurrences, fits_cons_of_headFault? rfl, fits_append, headsNamed_append,
      fits_iff_headsNamed _ b, fits_iff_headsNamed_arguments _ as]
  | .field b _ => by
    rw [visits, occurrences, fits_cons_of_headFault? rfl, fits_iff_headsNamed _ b]
  | .nextLoop => iff_of_true ((fits_cons_of_headFault? rfl).2 fits_nil) headsNamed_nil
  | .breakLoop => iff_of_true ((fits_cons_of_headFault? rfl).2 fits_nil) headsNamed_nil

theorem fits_iff_headsNamed_arguments (d : Nat) : ∀ as : List (Argument (Expression V)),
    Fits σ (visitsArguments spliced d as) ↔ HeadsNamed σ (occurrencesArguments as)
  | [] => iff_of_true fits_nil headsNamed_nil
  | ⟨_, none⟩ :: as => fits_iff_headsNamed_arguments d as
  | ⟨_, some n⟩ :: as => by
    rw [visitsArguments, occurrencesArguments, fits_append, headsNamed_append,
      fits_iff_headsNamed_arguments d as]
    refine and_congr_left' ?_
    by_cases hd : n.isDots
    · rw [if_pos hd]
      refine iff_of_true ?_ (headsNamed_singleton (by simp))
      split
      · exact fits_nil
      · obtain rfl := eq_symbol_of_isDots hd
        exact (fits_cons_of_headFault? rfl).2 fits_nil
    · rw [if_neg hd, if_neg (by simp [hd]), fits_iff_headsNamed d n]

theorem fits_iff_headsNamed_nodes (d : Nat) : ∀ ns : List (Expression V),
    Fits σ (visitsNodes spliced d ns) ↔ HeadsNamed σ (occurrencesNodes ns)
  | [] => iff_of_true fits_nil headsNamed_nil
  | n :: ns => by
    rw [visitsNodes, occurrencesNodes, fits_append, headsNamed_append, fits_iff_headsNamed d n,
      fits_iff_headsNamed_nodes d ns]

theorem fits_iff_headsNamed_formals (d : Nat) : ∀ fs : List (Formal (Expression V)),
    Fits σ (visitsFormals spliced d fs) ↔ HeadsNamed σ (occurrencesFormals fs)
  | [] => iff_of_true fits_nil headsNamed_nil
  | ⟨_, none⟩ :: fs => fits_iff_headsNamed_formals d fs
  | ⟨_, some n⟩ :: fs => by
    rw [visitsFormals, occurrencesFormals, fits_append, headsNamed_append,
      fits_iff_headsNamed d n, fits_iff_headsNamed_formals d fs]

end

theorem fits_of_unbound (d : Nat) (n : Expression V) (h : Unbound σ n.names) :
    Fits σ (n.visits spliced d) := by
  have hnames : Unbound σ (n.occurrences.map Occurrence.name) := by rwa [map_name_occurrences]
  exact (fits_iff_headsNamed d n).2 (headsNamed_of_unbound hnames)

theorem fits_arguments_of_unbound (d : Nat) (as : List (Argument (Expression V)))
    (h : Unbound σ (namesArguments as)) : Fits σ (visitsArguments spliced d as) := by
  have hnames : Unbound σ ((occurrencesArguments as).map Occurrence.name) := by
    rwa [map_name_occurrencesArguments]
  exact (fits_iff_headsNamed_arguments d as).2 (headsNamed_of_unbound hnames)

end Node

namespace Substitution

/-- The names of the result are what each occurrence of a name contributes, in the same order: a
symbol or head itself where it is not bound, and otherwise the names of what was put in, as they
stand there. A bound head contributes the one name that its binding denotes. -/
theorem apply_names {s : Substitution V} {o : Objects (Value V)} {n t : Expression V}
    (h : (s.apply o n).1 = .ok t) :
    n.occurrences.map Occurrence.name = n.names ∧
      t.names = n.occurrences.flatMap (Occurrence.contribution (s.source.find? o)) ∧
      ∀ f v, .head f ∈ n.occurrences → s.source.find? o f = some v →
        ∃ name, v.target? = some name ∧
          (Occurrence.head f).contribution (s.source.find? o) = [name] := by
  have hgraft : n.graft (s.source.find? o) = t := ((apply_eq_ok_iff s o n t).1 h).2
  refine ⟨n.map_name_occurrences, ?_, fun f v hf hv => ?_⟩
  · rw [← hgraft]
    exact n.names_graft
  · have hfits : Fits (s.source.find? o) (s.visits o n) := by
      rcases apply_of_ne_tooDeep s o n (by simp [h]) with ⟨hfits, -⟩ | ⟨-, f, w, he⟩
      · exact hfits
      · exact absurd (h.symm.trans he) (by simp)
    have hnamed := (n.fits_iff_headsNamed 1).1 hfits f hf
    obtain ⟨name, hname⟩ := exists_target_of_refusal? hnamed hv
    exact ⟨name, hname, by rw [Node.contribution_head, hv, Option.bind_some, hname]; rfl⟩

/-- A bound head, a symbol bound to a promise that mentions it, and a bundle with an entry that has
a label only. -/
theorem apply_names_spliced_call :
    let x : Symbol := ⟨"x"⟩
    let y : Symbol := ⟨"y"⟩
    let sum : Expression := .binary .add (.symbol x) (.symbol y)
    let source : Source := .list (.labelled
      [⟨some ⟨"f"⟩, .symbol ⟨"g"⟩⟩, ⟨some x, .promise ⟨0⟩ sum none⟩,
        ⟨some Symbol.dots,
          .bundle [⟨some ⟨"p"⟩, none⟩, ⟨none, none⟩, ⟨none, some (.language sum)⟩]⟩])
    let n : Expression := .call ⟨"f"⟩
      [⟨none, some (.symbol Symbol.dots)⟩, ⟨none, some (.unary .neg (.symbol x))⟩,
        ⟨some x, some (.symbol y)⟩]
    ∃ t, ((mk source 5).apply Objects.empty n).1 = .ok t ∧
      t.names = n.occurrences.flatMap (Occurrence.contribution (source.find? Objects.empty)) ∧
      t.names = [⟨"g"⟩, ⟨"p"⟩, x, y, x, y, y] := by
  intro x y sum source n
  have h : ((mk source 5).apply Objects.empty n).1 =
      .ok (.call ⟨"g"⟩
        [⟨none, some (.symbol ⟨"p"⟩)⟩, ⟨none, none⟩, ⟨none, some sum⟩,
          ⟨none, some (.unary .neg sum)⟩, ⟨some x, some (.symbol y)⟩]) := rfl
  exact ⟨_, h, (apply_names h).2.1, rfl⟩

end Substitution

end Deferred
