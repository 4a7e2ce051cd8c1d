import Deferred.Proofs.Substitution.Occurrences

/-!
# Two substitutions in a row

If two look-ups bind different names and nothing that the first can put in mentions a name of the
second, then to substitute by the first and the result by the second is to substitute by both at
once.
-/
set_option autoImplicit false

namespace Deferred

variable {V : Kind → Type}

/-- What is bound by either of two look-ups; the first is asked first. -/
def union (σ τ : Symbol → Option (Value V)) : Symbol → Option (Value V) :=
  fun x => (σ x).or (τ x)

/-- A look-up can bring a name into an expression. -/
inductive Brings (σ : Symbol → Option (Value V)) (x : Symbol) : Prop
  /-- The tree of a binding mentions it. -/
  | tree {name : Symbol} {v : Value V} (bound : σ name = some v) (mention : x ∈ v.tree.names)
  /-- It is a bare name and can become the head of a call. -/
  | head {name : Symbol} (bound : σ name = some (.symbol x))
  /-- An entry of the bundle that `...` is bound to mentions it or becomes it. -/
  | entry {entries : List (Argument (Value V))} (bound : σ Symbol.dots = some (.bundle entries))
      (mention : x ∈ Node.namesArguments (entries.map Argument.ofEntry))

namespace Brings

variable {σ : Symbol → Option (Value V)} {x : Symbol}

theorem of_bundle {entries : List (Argument (Value V))}
    (hs : (σ Symbol.dots).bind Value.bundle? = some entries)
    (hx : x ∈ Node.namesArguments (entries.map Argument.ofEntry)) : Brings σ x :=
  .entry (bind_bundle?_eq_some_iff.1 hs) hx

theorem of_target {f : Symbol} {v : Value V} (hs : σ f = some v) (ht : v.target? = some x) :
    Brings σ x := by
  have hn : ∀ n : Expression V, n.symbol? = some x → x ∈ n.names := by
    intro n hn
    cases n with
    | symbol name =>
      rw [Node.symbol?, Option.some.injEq] at hn
      simp [Node.names, hn]
    | _ => simp [Node.symbol?] at hn
  cases v with
  | promise id n scope => exact .tree hs (by rw [Value.tree_promise]; exact hn n ht)
  | language n => exact .tree hs (by rw [Value.tree_language]; exact hn n ht)
  | symbol name =>
    rw [Value.target?, Option.some.injEq] at ht
    exact .head (ht ▸ hs)
  | _ => simp [Value.target?] at ht

end Brings

/-- The look-ups bind different names, and the first brings in no name that the second binds. -/
structure Separate (σ τ : Symbol → Option (Value V)) : Prop where
  disjoint : ∀ x, (σ x).isSome → τ x = none
  foreign : ∀ x, Brings σ x → τ x = none

namespace Separate

variable {σ τ : Symbol → Option (Value V)} (h : Separate σ τ)

include h

theorem left_eq_none {x : Symbol} {v : Value V} (hx : τ x = some v) : σ x = none := by
  cases hs : σ x with
  | none => rfl
  | some w =>
    have ht := h.disjoint x (by simp [hs])
    rw [ht] at hx
    exact absurd hx (by simp)

theorem unbound_tree {name : Symbol} {v : Value V} (hs : σ name = some v) :
    Unbound τ v.tree.names :=
  fun x hx => h.foreign x (.tree hs hx)

theorem unbound_entries {entries : List (Argument (Value V))}
    (hs : (σ Symbol.dots).bind Value.bundle? = some entries) :
    Unbound τ (Node.namesArguments (entries.map Argument.ofEntry)) :=
  fun x hx => h.foreign x (.of_bundle hs hx)

theorem target_eq_none {f name : Symbol} {v : Value V} (hs : σ f = some v)
    (ht : v.target? = some name) : τ name = none :=
  h.foreign name (.of_target hs ht)

theorem bundle?_union (n : Expression V) :
    n.bundle? (union σ τ) = (n.bundle? σ).or (n.bundle? τ) := by
  by_cases hd : n.isDots
  · cases hs : σ Symbol.dots with
    | none => simp [Node.bundle?, hd, union, hs]
    | some v =>
      have ht := h.disjoint Symbol.dots (by simp [hs])
      simp [Node.bundle?, hd, union, hs, ht]
  · simp [Node.bundle?, hd]

/-- What the first look-up makes of an argument is `...` for the second only if it was before. -/
theorem bundle?_graft (n : Expression V) : (n.graft σ).bundle? τ = n.bundle? τ := by
  cases ht : τ Symbol.dots with
  | none => simp [Node.bundle?, ht]
  | some w =>
    suffices hd : (n.graft σ).isDots = n.isDots by simp [Node.bundle?, hd]
    cases n with
    | symbol name =>
      cases hs : σ name with
      | none => simp [Node.graft, hs]
      | some v =>
        have hn : (Node.symbol name : Expression V).isDots = false := by
          rw [Bool.eq_false_iff]
          intro hn
          have he : name = Symbol.dots := by simpa [Node.isDots, Node.symbol?] using hn
          rw [he, h.left_eq_none ht] at hs
          exact absurd hs (by simp)
        have hv : v.tree.isDots = false := by
          rw [Bool.eq_false_iff]
          intro hv
          have hx := h.unbound_tree hs Symbol.dots (by simp [Node.names_of_isDots hv])
          rw [hx] at ht
          exact absurd ht (by simp)
        simp [Node.graft, hs, hn, hv]
    | ifElse c t e => cases e <;> rfl
    | _ => rfl

end Separate

namespace Node

theorem graftArguments_append (σ : Symbol → Option (Value V)) :
    ∀ as bs : List (Argument (Expression V)),
      graftArguments σ (as ++ bs) = graftArguments σ as ++ graftArguments σ bs
  | [], _ => rfl
  | ⟨_, none⟩ :: as, bs => by
    rw [List.cons_append, graftArguments, graftArguments, graftArguments_append σ as bs]
    rfl
  | ⟨_, some _⟩ :: as, bs => by
    rw [List.cons_append, graftArguments, graftArguments, graftArguments_append σ as bs,
      List.append_assoc]

theorem visitsArguments_append {α : Type} (spliced : Bool) (d : Nat) :
    ∀ as bs : List (Argument (Node α)),
      visitsArguments spliced d (as ++ bs) =
        visitsArguments spliced d as ++ visitsArguments spliced d bs
  | [], _ => rfl
  | ⟨_, none⟩ :: as, bs => visitsArguments_append spliced d as bs
  | ⟨_, some _⟩ :: as, bs => by
    rw [List.cons_append, visitsArguments, visitsArguments, visitsArguments_append spliced d as bs,
      List.append_assoc]

variable {σ τ : Symbol → Option (Value V)}

theorem head_graft (h : Separate σ τ) (f : Symbol) :
    ((τ (((σ f).bind Value.target?).getD f)).bind Value.target?).getD
        (((σ f).bind Value.target?).getD f) =
      ((union σ τ f).bind Value.target?).getD f := by
  cases hs : σ f with
  | none => simp [union, hs]
  | some v =>
    cases ht : v.target? with
    | none => simp [union, hs, ht, h.disjoint f (by simp [hs])]
    | some name => simp [union, hs, ht, h.target_eq_none hs ht]

mutual

theorem graft_graft (h : Separate σ τ) :
    ∀ n : Expression V, (n.graft σ).graft τ = n.graft (union σ τ)
  | .constant _ => rfl
  | .symbol name => by
    cases hs : σ name with
    | none => simp [graft, union, hs]
    | some v => simp [graft, union, hs, graft_of_unbound v.tree (h.unbound_tree hs)]
  | .call f as => by rw [graft, graft, graft, head_graft h f, graftArguments_graft h as]
  | .block ss => by rw [graft, graft, graft, graftNodes_graft h ss]
  | .ifElse c t none => by rw [graft, graft, graft, graft_graft h c, graft_graft h t]
  | .ifElse c t (some e) => by
    rw [graft, graft, graft, graft_graft h c, graft_graft h t, graft_graft h e]
  | .whileLoop c b => by rw [graft, graft, graft, graft_graft h c, graft_graft h b]
  | .repeatLoop b => by rw [graft, graft, graft, graft_graft h b]
  | .forLoop _ s b => by rw [graft, graft, graft, graft_graft h s, graft_graft h b]
  | .function fs b => by rw [graft, graft, graft, graftFormals_graft h fs, graft_graft h b]
  | .assign _ v _ => by rw [graft, graft, graft, graft_graft h v]
  | .binary _ l m => by rw [graft, graft, graft, graft_graft h l, graft_graft h m]
  | .unary _ x => by rw [graft, graft, graft, graft_graft h x]
  | .index b as _ => by rw [graft, graft, graft, graft_graft h b, graftArguments_graft h as]
  | .field b _ => by rw [graft, graft, graft, graft_graft h b]
  | .nextLoop => rfl
  | .breakLoop => rfl

theorem graftArguments_graft (h : Separate σ τ) : ∀ as : List (Argument (Expression V)),
    graftArguments τ (graftArguments σ as) = graftArguments (union σ τ) as
  | [] => rfl
  | ⟨_, none⟩ :: as => by
    rw [graftArguments, graftArguments, graftArguments, graftArguments_graft h as]
  | ⟨name, some n⟩ :: as => by
    rw [graftArguments, graftArguments_append, graftArguments_graft h as, graftArguments,
      h.bundle?_union]
    congr 1
    cases hb : n.bundle? σ with
    | some entries =>
      exact graftArguments_of_unbound _ (h.unbound_entries (bind_of_bundle?_eq_some hb))
    | none =>
      simp only [graftArguments, h.bundle?_graft, graft_graft h n, List.append_nil, Option.none_or]

theorem graftNodes_graft (h : Separate σ τ) : ∀ ns : List (Expression V),
    graftNodes τ (graftNodes σ ns) = graftNodes (union σ τ) ns
  | [] => rfl
  | n :: ns => by rw [graftNodes, graftNodes, graftNodes, graft_graft h n, graftNodes_graft h ns]

theorem graftFormals_graft (h : Separate σ τ) : ∀ fs : List (Formal (Expression V)),
    graftFormals τ (graftFormals σ fs) = graftFormals (union σ τ) fs
  | [] => rfl
  | ⟨_, none⟩ :: fs => by rw [graftFormals, graftFormals, graftFormals, graftFormals_graft h fs]
  | ⟨_, some n⟩ :: fs => by
    rw [graftFormals, graftFormals, graftFormals, graft_graft h n, graftFormals_graft h fs]

end

theorem refusal?_union_eq_none_iff (h : Separate σ τ) (f : Symbol) :
    refusal? (union σ τ) f = none ↔
      refusal? σ f = none ∧ refusal? τ (((σ f).bind Value.target?).getD f) = none := by
  cases hs : σ f with
  | none => simp [refusal?, union, hs]
  | some v =>
    cases ht : v.target? with
    | none => simp [refusal?, union, hs, ht]
    | some name => simp [refusal?, union, hs, ht, h.target_eq_none hs ht]

theorem fits_of_isDots {n : Expression V} (hn : n.isDots = true) (spliced : Bool) (d : Nat) :
    Fits σ (n.visits spliced d) := by
  rw [eq_symbol_of_isDots hn]
  exact (fits_cons_of_headFault? rfl).2 fits_nil

theorem both_iff {p q a b c d : Prop} (hp : p ↔ a ∧ b) (hq : q ↔ c ∧ d) :
    p ∧ q ↔ (a ∧ c) ∧ (b ∧ d) := by
  rw [hp, hq, and_and_and_comm]

mutual

theorem fits_union_iff (h : Separate σ τ) (d : Nat) : ∀ n : Expression V,
    Fits (union σ τ) (n.visits (bindsBundle (union σ τ)) d) ↔
      Fits σ (n.visits (bindsBundle σ) d) ∧ Fits τ ((n.graft σ).visits (bindsBundle τ) d)
  | .constant _ => by simp [visits, graft, fits_cons, headFault?, fits_nil]
  | .symbol name => by
    cases hs : σ name with
    | none => simp [visits, graft, hs, fits_cons, headFault?, fits_nil]
    | some v =>
      have ht : Fits τ (v.tree.visits (bindsBundle τ) d) :=
        fits_of_unbound d v.tree (h.unbound_tree hs)
      simp [visits, graft, hs, fits_cons, headFault?, fits_nil, ht]
  | .call f as => by
    simp only [visits, graft, fits_cons, headFault?]
    exact both_iff (refusal?_union_eq_none_iff h f) (fits_arguments_union_iff h _ as)
  | .block ss => by
    simp only [visits, graft, fits_cons, headFault?, true_and]
    exact fits_nodes_union_iff h _ ss
  | .ifElse c t none => by
    simp only [visits, graft, fits_cons, fits_append, headFault?, true_and]
    exact both_iff (fits_union_iff h _ c) (fits_union_iff h _ t)
  | .ifElse c t (some e) => by
    simp only [visits, graft, fits_cons, fits_append, headFault?, true_and]
    exact both_iff (fits_union_iff h _ c) (both_iff (fits_union_iff h _ t) (fits_union_iff h _ e))
  | .whileLoop c b => by
    simp only [visits, graft, fits_cons, fits_append, headFault?, true_and]
    exact both_iff (fits_union_iff h _ c) (fits_union_iff h _ b)
  | .repeatLoop b => by
    simp only [visits, graft, fits_cons, headFault?, true_and]
    exact fits_union_iff h _ b
  | .forLoop _ s b => by
    simp only [visits, graft, fits_cons, fits_append, headFault?, true_and]
    exact both_iff (fits_union_iff h _ s) (fits_union_iff h _ b)
  | .function fs b => by
    simp only [visits, graft, fits_cons, fits_append, headFault?, true_and]
    exact both_iff (fits_formals_union_iff h _ fs) (fits_union_iff h _ b)
  | .assign _ v _ => by
    simp only [visits, graft, fits_cons, headFault?, true_and]
    exact fits_union_iff h _ v
  | .binary _ l m => by
    simp only [visits, graft, fits_cons, fits_append, headFault?, true_and]
    exact both_iff (fits_union_iff h _ l) (fits_union_iff h _ m)
  | .unary _ x => by
    simp only [visits, graft, fits_cons, headFault?, true_and]
    exact fits_union_iff h _ x
  | .index b as _ => by
    simp only [visits, graft, fits_cons, fits_append, headFault?, true_and]
    exact both_iff (fits_union_iff h _ b) (fits_arguments_union_iff h _ as)
  | .field b _ => by
    simp only [visits, graft, fits_cons, headFault?, true_and]
    exact fits_union_iff h _ b
  | .nextLoop => by simp [visits, graft, fits_cons, headFault?, fits_nil]
  | .breakLoop => by simp [visits, graft, fits_cons, headFault?, fits_nil]

theorem fits_arguments_union_iff (h : Separate σ τ) (d : Nat) :
    ∀ as : List (Argument (Expression V)),
      Fits (union σ τ) (visitsArguments (bindsBundle (union σ τ)) d as) ↔
        Fits σ (visitsArguments (bindsBundle σ) d as) ∧
          Fits τ (visitsArguments (bindsBundle τ) d (graftArguments σ as))
  | [] => by simp [visitsArguments, graftArguments, fits_nil]
  | ⟨_, none⟩ :: as => fits_arguments_union_iff h d as
  | ⟨name, some n⟩ :: as => by
    rw [graftArguments, visitsArguments_append]
    simp only [visitsArguments, fits_append]
    refine both_iff ?_ (fits_arguments_union_iff h d as)
    simp only [← isSome_bundle?, h.bundle?_union, Option.isSome_or]
    cases hb : n.bundle? σ with
    | some entries =>
      have he := h.unbound_entries (bind_of_bundle?_eq_some hb)
      simp [fits_nil, fits_arguments_of_unbound d _ he]
    | none =>
      simp only [visitsArguments, ← isSome_bundle?, h.bundle?_graft, Option.isSome_none,
        Bool.false_or, Bool.false_eq_true, if_false, List.append_nil]
      cases ht : n.bundle? τ with
      | some entries => simp [fits_nil, fits_of_isDots (isDots_of_bundle?_eq_some ht)]
      | none => simpa using fits_union_iff h d n

theorem fits_nodes_union_iff (h : Separate σ τ) (d : Nat) : ∀ ns : List (Expression V),
    Fits (union σ τ) (visitsNodes (bindsBundle (union σ τ)) d ns) ↔
      Fits σ (visitsNodes (bindsBundle σ) d ns) ∧
        Fits τ (visitsNodes (bindsBundle τ) d (graftNodes σ ns))
  | [] => by simp [visitsNodes, graftNodes, fits_nil]
  | n :: ns => by
    simp only [visitsNodes, graftNodes, fits_append]
    exact both_iff (fits_union_iff h d n) (fits_nodes_union_iff h d ns)

theorem fits_formals_union_iff (h : Separate σ τ) (d : Nat) :
    ∀ fs : List (Formal (Expression V)),
      Fits (union σ τ) (visitsFormals (bindsBundle (union σ τ)) d fs) ↔
        Fits σ (visitsFormals (bindsBundle σ) d fs) ∧
          Fits τ (visitsFormals (bindsBundle τ) d (graftFormals σ fs))
  | [] => by simp [visitsFormals, graftFormals, fits_nil]
  | ⟨_, none⟩ :: fs => fits_formals_union_iff h d fs
  | ⟨_, some n⟩ :: fs => by
    simp only [visitsFormals, graftFormals, fits_append]
    exact both_iff (fits_union_iff h d n) (fits_formals_union_iff h d fs)

end

end Node

namespace Substitution

variable (s : Substitution V) (o : Objects (Value V)) (n : Expression V)

/-- Substitutes by one and what that gives by another. -/
def applyThen (s t : Substitution V) (o : Objects (Value V)) (n : Expression V) :
    Except (Fault (Value V)) (Expression V) :=
  (s.apply o n).1.bind fun m => (t.apply o m).1

theorem applyThen_of_ok {s t : Substitution V} {m : Expression V}
    (h : (s.apply o n).1 = .ok m) : s.applyThen t o n = (t.apply o m).1 := by
  rw [applyThen, h]
  rfl

theorem applyThen_of_error {s t : Substitution V} {e : Fault (Value V)}
    (h : (s.apply o n).1 = .error e) : s.applyThen t o n = .error e := by
  rw [applyThen, h]
  rfl

theorem exists_limit_apply (source : Source (Value V)) :
    ∃ least, ∀ limit ≥ least, ((mk source limit).apply o n).1 ≠ .error (.tooDeep limit) := by
  obtain ⟨least, hleast⟩ := exists_depth_bound ((mk source 0).visits o n)
  refine ⟨least, fun limit hl => apply_ne_tooDeep (s := mk source limit) o n fun v hv => ?_⟩
  have := hleast v hv
  change v.depth ≤ limit
  omega

theorem exists_limit_applyThen (a b : Source (Value V)) :
    ∃ least, ∀ limit ≥ least,
      (mk a limit).applyThen (mk b limit) o n ≠ .error (.tooDeep limit) := by
  obtain ⟨least₁, h₁⟩ := exists_limit_apply o n a
  obtain ⟨least₂, h₂⟩ := exists_limit_apply o (n.graft (a.find? o)) b
  refine ⟨least₁ + least₂, fun limit hl => ?_⟩
  have ha := h₁ limit (by omega)
  rcases apply_of_ne_tooDeep (mk a limit) o n ha with ⟨-, he⟩ | ⟨-, f, w, he⟩
  · rw [applyThen_of_ok o n he]
    exact h₂ limit (by omega)
  · rw [applyThen_of_error o n he]
    simp

/-- Below the limit, two substitutions in a row fail just where one of them comes to a head that
gets no name. -/
theorem applyThen_of_ne_tooDeep {a b : Source (Value V)} {limit : Nat}
    (hn : (mk a limit).applyThen (mk b limit) o n ≠ .error (.tooDeep limit)) :
    (Fits (a.find? o) ((mk a limit).visits o n) ∧
        Fits (b.find? o) ((mk b limit).visits o (n.graft (a.find? o)))) ∧
        (mk a limit).applyThen (mk b limit) o n =
          .ok ((n.graft (a.find? o)).graft (b.find? o)) ∨
      ¬ (Fits (a.find? o) ((mk a limit).visits o n) ∧
        Fits (b.find? o) ((mk b limit).visits o (n.graft (a.find? o)))) ∧
        ∃ f v, (mk a limit).applyThen (mk b limit) o n = .error (.targetNotName f v) := by
  have ha : ((mk a limit).apply o n).1 ≠ .error (.tooDeep limit) :=
    fun he => hn (applyThen_of_error o n he)
  rcases apply_of_ne_tooDeep (mk a limit) o n ha with ⟨hfa, he⟩ | ⟨hfa, f, w, he⟩
  · rw [applyThen_of_ok o n he] at hn ⊢
    rcases apply_of_ne_tooDeep (mk b limit) o _ hn with ⟨hfb, heb⟩ | ⟨hfb, heb⟩
    · exact Or.inl ⟨⟨hfa, hfb⟩, heb⟩
    · exact Or.inr ⟨fun hf => hfb hf.2, heb⟩
  · exact Or.inr ⟨fun hf => hfa hf.1, f, w, applyThen_of_error o n he⟩

/-- If the names bound by `a` and `b` differ and `a` brings in none that `b` binds, then to
substitute by `a` and the result by `b` comes to the same as to substitute by both at once, at every
limit that none of the walks meets; and from some limit on none does. -/
theorem apply_union {a b c : Source (Value V)} (h : Separate (a.find? o) (b.find? o))
    (hc : ∀ x, c.find? o x = union (a.find? o) (b.find? o) x) :
    (∃ least, ∀ limit ≥ least,
      ((mk c limit).apply o n).1 ≠ .error (.tooDeep limit) ∧
        (mk a limit).applyThen (mk b limit) o n ≠ .error (.tooDeep limit)) ∧
    ∀ limit, ((mk c limit).apply o n).1 ≠ .error (.tooDeep limit) →
      (mk a limit).applyThen (mk b limit) o n ≠ .error (.tooDeep limit) →
      (∃ t, ((mk c limit).apply o n).1 = .ok t ∧
        (mk a limit).applyThen (mk b limit) o n = .ok t) ∨
      (∃ f v, ((mk c limit).apply o n).1 = .error (.targetNotName f v)) ∧
        ∃ f v, (mk a limit).applyThen (mk b limit) o n = .error (.targetNotName f v) := by
  have hu : c.find? o = union (a.find? o) (b.find? o) := funext hc
  constructor
  · obtain ⟨least₁, h₁⟩ := exists_limit_apply o n c
    obtain ⟨least₂, h₂⟩ := exists_limit_applyThen o n a b
    exact ⟨least₁ + least₂, fun limit hl => ⟨h₁ limit (by omega), h₂ limit (by omega)⟩⟩
  · intro limit hn₁ hn₂
    have hfits : Fits (c.find? o) ((mk c limit).visits o n) ↔
        Fits (a.find? o) ((mk a limit).visits o n) ∧
          Fits (b.find? o) ((mk b limit).visits o (n.graft (a.find? o))) := by
      unfold visits
      rw [hu]
      exact Node.fits_union_iff h 1 n
    have hgraft : (n.graft (a.find? o)).graft (b.find? o) = n.graft (c.find? o) := by
      rw [hu]
      exact Node.graft_graft h n
    rcases apply_of_ne_tooDeep (mk c limit) o n hn₁ with ⟨hfc, hec⟩ | ⟨hfc, hec⟩
    · rcases applyThen_of_ne_tooDeep o n hn₂ with ⟨-, he⟩ | ⟨hf, -⟩
      · exact Or.inl ⟨n.graft (c.find? o), hec, he.trans (by rw [hgraft])⟩
      · exact absurd (hfits.1 hfc) hf
    · rcases applyThen_of_ne_tooDeep o n hn₂ with ⟨hf, -⟩ | ⟨-, he⟩
      · exact absurd (hfits.2 hf) hfc
      · exact Or.inr ⟨hec, he⟩

/-- A head and `...` are bound by the first look-up and the other argument by the second. -/
theorem apply_union_spliced_call :
    let xs : List (Entry Value) :=
      [⟨some ⟨"f"⟩, .symbol ⟨"g"⟩⟩,
        ⟨some Symbol.dots, .bundle [⟨some ⟨"p"⟩, some (.language (.symbol ⟨"y"⟩))⟩]⟩]
    let ys : List (Entry Value) := [⟨some ⟨"x"⟩, .language (.symbol ⟨"z"⟩)⟩]
    let a : Source := .list (.labelled xs)
    let b : Source := .list (.labelled ys)
    let c : Source := .list (.labelled (xs ++ ys))
    let n : Expression :=
      .call ⟨"f"⟩ [⟨none, some (.symbol ⟨"x"⟩)⟩, ⟨none, some (.symbol Symbol.dots)⟩]
    Separate (a.find? Objects.empty) (b.find? Objects.empty) ∧
      (∀ x, c.find? Objects.empty x =
        union (a.find? Objects.empty) (b.find? Objects.empty) x) ∧
      ∃ t, ((mk c 2).apply Objects.empty n).1 = .ok t ∧
        (mk a 2).applyThen (mk b 2) Objects.empty n = .ok t := by
  intro xs ys a b c n
  have ha : ∀ x v, a.find? Objects.empty x = some v → ∃ e ∈ xs, e.value = v := by
    intro x v hv
    obtain ⟨e, he, rfl⟩ := Option.map_eq_some_iff.1 hv
    exact ⟨e, List.mem_of_find?_eq_some he, rfl⟩
  have hb : ∀ x, x ≠ ⟨"x"⟩ → b.find? Objects.empty x = none := by
    intro x hne
    simp [b, ys, Source.find?, Listing.lookup?, hne.symm]
  have h : Separate (a.find? Objects.empty) (b.find? Objects.empty) := by
    constructor
    · intro x hx
      refine hb x ?_
      rintro rfl
      exact absurd hx (by decide)
    · intro x hx
      refine hb x ?_
      rintro rfl
      cases hx with
      | tree bound mention =>
        obtain ⟨e, he, rfl⟩ := ha _ _ bound
        simp only [xs, List.mem_cons, List.not_mem_nil, or_false] at he
        rcases he with rfl | rfl <;> simp [Value.tree, Node.names] at mention
      | head bound =>
        obtain ⟨e, he, hv⟩ := ha _ _ bound
        simp only [xs, List.mem_cons, List.not_mem_nil, or_false] at he
        rcases he with rfl | rfl <;> simp at hv
      | entry bound mention =>
        obtain ⟨e, he, hv⟩ := ha _ _ bound
        simp only [xs, List.mem_cons, List.not_mem_nil, or_false] at he
        rcases he with rfl | rfl
        · simp at hv
        · rw [Value.bundle.injEq] at hv
          subst hv
          simp [Argument.ofEntry, Value.tree_language, Node.namesArguments, Node.names] at mention
  have hc : ∀ x, c.find? Objects.empty x =
      union (a.find? Objects.empty) (b.find? Objects.empty) x := by
    intro x
    simp [a, b, c, Source.find?, Listing.lookup?, union, List.find?_append, Option.map_or]
  refine ⟨h, hc, ?_⟩
  have hok : ((mk c 2).apply Objects.empty n).1 =
      .ok (.call ⟨"g"⟩ [⟨none, some (.symbol ⟨"z"⟩)⟩, ⟨some ⟨"p"⟩, some (.symbol ⟨"y"⟩)⟩]) := rfl
  have hthen : (mk a 2).applyThen (mk b 2) Objects.empty n =
      .ok (.call ⟨"g"⟩ [⟨none, some (.symbol ⟨"z"⟩)⟩, ⟨some ⟨"p"⟩, some (.symbol ⟨"y"⟩)⟩]) := rfl
  rcases (apply_union Objects.empty n h hc).2 2 (by rw [hok]; simp) (by rw [hthen]; simp) with
    hboth | ⟨⟨f, v, he⟩, -⟩
  · exact hboth
  · exact absurd (hok.symm.trans he) (by simp)

end Substitution

end Deferred
