import Deferred.Proofs.Substitution.Composition
import Deferred.Proofs.Substitution.Identity

set_option autoImplicit false

namespace Deferred

variable {V : Kind → Type}

/-- No name that a look-up can bring in is bound by it. -/
def Closed (σ : Symbol → Option (Value V)) : Prop := ∀ x, Brings σ x → σ x = none

namespace Closed

variable {σ : Symbol → Option (Value V)} (h : Closed σ)

include h

theorem unbound_symbolNames (name : Symbol) : Unbound σ (symbolNames σ name) := by
  intro x hx
  unfold symbolNames at hx
  cases hv : σ name with
  | none =>
    have hname : x = name := by simpa [hv] using hx
    rw [hname, hv]
  | some v => exact h x (.tree hv (by simpa [hv] using hx))

/-- A bound head is retargeted to a name that is not bound; one whose binding denotes no name would
stay. -/
theorem unbound_head {f : Symbol} (hf : refusal? σ f = none) :
    Unbound σ ((Occurrence.head f).contribution σ) := by
  intro x hx
  rw [Node.contribution_head, List.mem_singleton] at hx
  cases hv : σ f with
  | none =>
    have hname : x = f := by simpa [hv] using hx
    rw [hname, hv]
  | some v =>
    obtain ⟨name, hname⟩ := exists_target_of_refusal? hf hv
    have hx : x = name := by simpa [hv, hname] using hx
    exact hx ▸ h name (.of_target hv hname)

theorem unbound_rest : Unbound σ (Occurrence.rest.contribution σ) := by
  rw [Occurrence.contribution]
  cases hb : (σ Symbol.dots).bind Value.bundle? with
  | none => exact h.unbound_symbolNames Symbol.dots
  | some entries =>
    intro x hx
    have hentry : x ∈ Node.namesArguments (entries.map Argument.ofEntry) := by
      rw [namesArguments_ofEntry]
      exact hx
    exact h x (.of_bundle hb hentry)

theorem unbound_graft {n : Expression V} (hn : HeadsNamed σ n.occurrences) :
    Unbound σ (n.graft σ).names := by
  intro x hx
  rw [Node.names_graft] at hx
  obtain ⟨o, ho, hx⟩ := List.mem_flatMap.1 hx
  cases o with
  | symbol name => exact h.unbound_symbolNames name x hx
  | head f => exact h.unbound_head (hn f ho) x hx
  | rest => exact h.unbound_rest x hx

end Closed

/-- The names that a value can bring in, if it is bound. -/
def Value.brought : Value V → List Symbol
  | symbol name => [name]
  | bundle es => Node.namesArguments (es.map Argument.ofEntry)
  | v => v.tree.names

theorem Brings.exists_brought {σ : Symbol → Option (Value V)} {x : Symbol} (h : Brings σ x) :
    ∃ name v, σ name = some v ∧ x ∈ v.brought := by
  cases h with
  | @tree name v bound mention =>
    refine ⟨name, v, bound, ?_⟩
    cases v with
    | symbol y => simp [Value.tree, Node.names] at mention
    | bundle es => simp [Value.tree, Node.names] at mention
    | _ => exact mention
  | @head name bound => exact ⟨name, .symbol x, bound, List.mem_singleton.2 rfl⟩
  | @entry es bound mention => exact ⟨Symbol.dots, .bundle es, bound, mention⟩

theorem Brings.exists_item {o : Objects (Value V)} {es : List (Entry (Value V))} {x : Symbol}
    (h : Brings ((Source.list (.labelled es)).find? o) x) : ∃ e ∈ es, x ∈ e.value.brought := by
  obtain ⟨name, v, hv, hmention⟩ := h.exists_brought
  obtain ⟨e, he, rfl⟩ := Option.map_eq_some_iff.1 hv
  exact ⟨e, List.mem_of_find?_eq_some he, hmention⟩

theorem closed_of_list (o : Objects (Value V)) {es : List (Entry (Value V))}
    (h : ∀ e ∈ es, ∀ x ∈ e.value.brought, ∀ d ∈ es, d.label ≠ some x) :
    Closed ((Source.list (.labelled es)).find? o) := by
  intro x hx
  obtain ⟨e, he, hmention⟩ := hx.exists_item
  have hlabels := h e he x hmention
  have hnone : es.find? (·.label = some x) = none :=
    List.find?_eq_none.2 fun d hd hlabel => hlabels d hd (of_decide_eq_true hlabel)
  rw [Source.find?, Listing.lookup?, hnone, Option.map_none]

namespace Substitution

variable {o : Objects (Value V)}

theorem headsNamed_of_apply_eq_ok {s : Substitution V} {n t : Expression V}
    (h : (s.apply o n).1 = .ok t) : HeadsNamed (s.source.find? o) n.occurrences := by
  rcases apply_of_ne_tooDeep s o n (by simp [h]) with ⟨hfits, -⟩ | ⟨-, f, v, he⟩
  · exact (n.fits_iff_headsNamed 1).1 hfits
  · exact absurd (h.symm.trans he) (by simp)

theorem unbound_of_apply_eq_ok {s : Substitution V} (hs : Closed (s.source.find? o))
    {n t : Expression V} (h : (s.apply o n).1 = .ok t) : Unbound (s.source.find? o) t.names := by
  have hgraft : n.graft (s.source.find? o) = t := ((apply_eq_ok_iff s o n t).1 h).2
  rw [← hgraft]
  exact hs.unbound_graft (headsNamed_of_apply_eq_ok h)

/-- A source is closed just if no result of a substitution against it mentions a name that it
binds. -/
theorem closed_iff_forall_unbound (source : Source (Value V)) :
    Closed (source.find? o) ↔ ∀ (n t : Expression V) (limit : Nat),
      ((mk source limit).apply o n).1 = .ok t → Unbound (source.find? o) t.names := by
  refine ⟨fun hs n t limit ht => unbound_of_apply_eq_ok hs ht, fun h x hx => ?_⟩
  -- Each way to bring a name in is shown by the smallest expression that takes it.
  cases hx with
  | @tree name v bound mention =>
    have hok : ((mk source 1).apply o (.symbol name)).1 = .ok v.tree := by
      rw [apply_eq_ok_iff]
      refine ⟨?_, by simp [Node.graft, bound]⟩
      simp [visits, Node.visits, Visit.offence?, rules, Node.headFault?]
    exact h _ _ 1 hok x mention
  | @head name bound =>
    have hok : ((mk source 1).apply o (.call name [])).1 = .ok (.call x []) := by
      rw [apply_eq_ok_iff]
      refine ⟨?_, by simp [Node.graft, Node.graftArguments, bound, Value.target?]⟩
      simp [visits, Node.visits, Node.visitsArguments, Visit.offence?, rules, Node.headFault?,
        refusal?, bound, Value.target?]
    exact h _ _ 1 hok x (by simp [Node.names])
  | @entry entries bound mention =>
    have hok : ((mk source 2).apply o
        (.index (.constant .null) [⟨none, some (.symbol Symbol.dots)⟩] false)).1 =
          .ok (.index (.constant .null) (entries.map Argument.ofEntry) false) := by
      rw [apply_eq_ok_iff]
      refine ⟨?_, by simp [Node.graft, Node.graftArguments, Node.bundle?, Node.isDots,
        Node.symbol?, bound, Value.bundle?]⟩
      simp [visits, Node.visits, Node.visitsArguments, Visit.offence?, rules, Node.headFault?,
        bindsBundle, Node.isDots, Node.symbol?, bound, Value.bundle?]
    exact h _ _ 2 hok x (by simpa [Node.names] using mention)

/-- What a substitution against a closed source gives mentions no name that the source binds. To
substitute it again changes nothing, at any limit that it is not too high for. -/
theorem apply_idempotent {s : Substitution V} (hs : Closed (s.source.find? o))
    {n t : Expression V} (h : (s.apply o n).1 = .ok t) :
    (∀ x ∈ t.names, s.source.find? o x = none) ∧
      ∀ limit, ((mk s.source limit).apply o t).1 =
        if t.height ≤ limit then .ok t else .error (.tooDeep limit) := by
  have hunbound := unbound_of_apply_eq_ok hs h
  exact ⟨hunbound, fun limit => apply_of_unbound o t hunbound limit⟩

/-- A retargeted head, a promise and a bundle with an entry that has a label only. -/
theorem apply_idempotent_spliced_call :
    let sum : Expression := .binary .add (.symbol ⟨"y"⟩) (.symbol ⟨"z"⟩)
    let es : List (Entry Value) :=
      [⟨some ⟨"f"⟩, .symbol ⟨"g"⟩⟩, ⟨some ⟨"x"⟩, .promise ⟨0⟩ sum none⟩,
        ⟨some Symbol.dots, .bundle [⟨some ⟨"p"⟩, none⟩, ⟨some ⟨"x"⟩, some (.language sum)⟩]⟩]
    let source : Source := .list (.labelled es)
    let n : Expression :=
      .call ⟨"f"⟩ [⟨none, some (.symbol ⟨"x"⟩)⟩, ⟨none, some (.symbol Symbol.dots)⟩]
    let t : Expression :=
      .call ⟨"g"⟩ [⟨none, some sum⟩, ⟨none, some (.symbol ⟨"p"⟩)⟩, ⟨some ⟨"x"⟩, some sum⟩]
    Closed (source.find? Objects.empty) ∧ ((mk source 2).apply Objects.empty n).1 = .ok t ∧
      (∀ x ∈ t.names, source.find? Objects.empty x = none) ∧
      ((mk source 3).apply Objects.empty t).1 = .ok t ∧
      ((mk source 2).apply Objects.empty t).1 = .error (.tooDeep 2) := by
  intro sum es source n t
  have hclosed : Closed (source.find? Objects.empty) := closed_of_list _ (by decide)
  have ht : ((mk source 2).apply Objects.empty n).1 = .ok t := rfl
  obtain ⟨hnames, hagain⟩ := apply_idempotent hclosed ht
  exact ⟨hclosed, ht, hnames, hagain 3, hagain 2⟩

end Substitution

end Deferred
