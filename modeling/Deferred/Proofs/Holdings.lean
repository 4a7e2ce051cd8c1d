import Deferred.Value.Anchors

/-!
# What stays in existence

Settling leaves the greatest set of containers in which each is held by a root or by another one of
them. So `Objects.holdings` is closed under what its owners hold, and a change of the heap brings
nothing into existence but what it makes.
-/
set_option autoImplicit false

namespace Deferred

def Owner.anchor : Owner → Anchor
  | environment id => .environment id
  | promise id => .promise id

theorem Anchor.owner?_eq_some_iff {a : Anchor} {e : Owner} :
    a.owner? = some e ↔ a = e.anchor := by
  cases a <;> cases e <;> simp [owner?, Owner.anchor]

namespace Container

theorem isAmong_iff (c : Container) (anchors : List Anchor) :
    c.isAmong anchors = true ↔ c.owner.anchor ∈ anchors := by
  simp [isAmong, Anchor.owner?_eq_some_iff]

theorem mem_sweep_iff {roots : List Anchor} {cs : List Container} {c : Container} :
    c ∈ sweep roots cs ↔
      c ∈ cs ∧ (c.owner.anchor ∈ roots ∨ ∃ d ∈ cs, c.owner.anchor ∈ d.held) := by
  simp [sweep, List.mem_filter, isAmong_iff]

theorem mem_of_mem_settle {roots : List Anchor} {fuel : Nat} {cs : List Container}
    {c : Container} (h : c ∈ settle roots fuel cs) : c ∈ cs := by
  induction fuel generalizing cs with
  | zero => exact h
  | succ fuel ih =>
    simp only [settle] at h
    split at h
    · exact h
    · exact (mem_sweep_iff.mp (ih h)).1

/-- As many sweeps as there are containers are enough: each sweep but the last takes one away. -/
theorem sweep_settle {roots : List Anchor} {fuel : Nat} {cs : List Container}
    (h : cs.length ≤ fuel) : sweep roots (settle roots fuel cs) = settle roots fuel cs := by
  induction fuel generalizing cs with
  | zero =>
    have hcs : cs = [] := List.length_eq_zero_iff.mp (by omega)
    subst hcs
    rfl
  | succ fuel ih =>
    simp only [settle]
    split
    case isTrue hlen =>
      exact List.filter_eq_self.mpr (List.length_filter_eq_length_iff.mp hlen)
    case isFalse hlen =>
      have hle : (sweep roots cs).length ≤ cs.length := List.length_filter_le _ _
      exact ih (by omega)

/-- A set of containers of which each is held by a root or by another one outlives settling. -/
theorem mem_settle_of_stable {roots : List Anchor} {P : Container → Prop} {fuel : Nat}
    {cs : List Container}
    (hP : ∀ c ∈ cs, P c →
      c.owner.anchor ∈ roots ∨ ∃ d ∈ cs, P d ∧ c.owner.anchor ∈ d.held)
    {c : Container} (hc : c ∈ cs) (h : P c) : c ∈ settle roots fuel cs := by
  induction fuel generalizing cs with
  | zero => exact hc
  | succ fuel ih =>
    have hswept : ∀ d ∈ cs, P d → d ∈ sweep roots cs := by
      intro d hd hPd
      refine mem_sweep_iff.mpr ⟨hd, ?_⟩
      rcases hP d hd hPd with hroot | ⟨e, he, _, hheld⟩
      · exact Or.inl hroot
      · exact Or.inr ⟨e, he, hheld⟩
    simp only [settle]
    split
    · exact hc
    · refine ih (fun d hd hPd => ?_) (hswept c hc h)
      rcases hP d (mem_sweep_iff.mp hd).1 hPd with hroot | ⟨e, he, hPe, hheld⟩
      · exact Or.inl hroot
      · exact Or.inr ⟨e, hswept e he hPe, hPe, hheld⟩

end Container

namespace Objects

theorem held_of_not_mem_owners (o : Objects) {e : Owner} (h : e ∉ o.owners) : o.held e = [] := by
  cases e with
  | environment id =>
    obtain ⟨i⟩ := id
    have hid : o.environments.size ≤ i := by simpa [owners] using h
    simp [held, environment, Array.getElem?_eq_none hid, Environment.empty, Environment.parent,
      Standing.parent, EnvironmentId.anchors, Bindings.empty]
  | promise id =>
    obtain ⟨i⟩ := id
    have hid : o.outcomes.size ≤ i := by simpa [owners] using h
    simp [held, outcome?, Array.getElem?_eq_none hid]

theorem mem_containers_iff {o : Objects} {c : Container} :
    c ∈ o.containers ↔ c.held = o.held c.owner ∧ c.held ≠ [] := by
  simp only [containers, List.mem_filter, List.mem_map]
  constructor
  · rintro ⟨⟨e, _, rfl⟩, hne⟩
    exact ⟨rfl, by simpa using hne⟩
  · rintro ⟨hheld, hne⟩
    refine ⟨⟨c.owner, ?_, by rw [← hheld]⟩, by simpa using hne⟩
    by_cases hmem : c.owner ∈ o.owners
    · exact hmem
    · exact absurd (hheld.trans (o.held_of_not_mem_owners hmem)) hne

/-- Whether an environment or promise stays in existence and holds on to something. -/
def Survives (o : Objects) (roots : List Anchor) (e : Owner) : Prop :=
  ⟨e, o.held e⟩ ∈ Container.settle roots o.containers.length o.containers

theorem mem_holdings_iff {o : Objects} {roots : List Anchor} {a : Anchor} :
    a ∈ o.holdings roots ↔ a ∈ roots ∨ ∃ e, o.Survives roots e ∧ a ∈ o.held e := by
  simp only [holdings, List.mem_append, List.mem_flatMap]
  refine or_congr_right ⟨?_, ?_⟩
  · rintro ⟨c, hc, ha⟩
    have hheld := (mem_containers_iff.mp (Container.mem_of_mem_settle hc)).1
    refine ⟨c.owner, ?_, hheld ▸ ha⟩
    rw [Survives, ← hheld]
    exact hc
  · rintro ⟨e, he, ha⟩
    exact ⟨⟨e, o.held e⟩, he, ha⟩

theorem mem_holdings_of_root {o : Objects} {roots : List Anchor} {a : Anchor} (h : a ∈ roots) :
    a ∈ o.holdings roots := mem_holdings_iff.mpr (Or.inl h)

theorem Survives.held_ne_nil {o : Objects} {roots : List Anchor} {e : Owner}
    (h : o.Survives roots e) : o.held e ≠ [] :=
  (mem_containers_iff.mp (Container.mem_of_mem_settle h)).2

theorem Survives.anchor_mem {o : Objects} {roots : List Anchor} {e : Owner}
    (h : o.Survives roots e) : e.anchor ∈ o.holdings roots := by
  rw [Survives, ← Container.sweep_settle (Nat.le_refl o.containers.length)] at h
  obtain ⟨_, hroot | ⟨d, hd, hheld⟩⟩ := Container.mem_sweep_iff.mp h
  · exact mem_holdings_of_root hroot
  · exact List.mem_append_right _ (List.mem_flatMap.mpr ⟨d, hd, hheld⟩)

/-- Whatever is held stays, also by others that hold each other. -/
theorem survives_of_stable {o : Objects} {roots : List Anchor} {P : Owner → Prop}
    (hP : ∀ e, P e → o.held e ≠ [] ∧
      (e.anchor ∈ o.holdings roots ∨ ∃ d, P d ∧ e.anchor ∈ o.held d))
    {e : Owner} (h : P e) : o.Survives roots e := by
  have hmem : ∀ d, o.held d ≠ [] → (⟨d, o.held d⟩ : Container) ∈ o.containers :=
    fun d hd => mem_containers_iff.mpr ⟨rfl, hd⟩
  -- Those that survive anyway have to be among the stable set, since they may hold the others.
  refine Container.mem_settle_of_stable (P := fun c => P c.owner ∨ o.Survives roots c.owner) ?_
    (hmem e (hP e h).1) (Or.inl h)
  intro c hc hstable
  have hheld : c.owner.anchor ∈ o.holdings roots ∨
      ∃ d, P d ∧ c.owner.anchor ∈ o.held d := by
    rcases hstable with hPc | hsurvives
    · exact (hP c.owner hPc).2
    · exact Or.inl hsurvives.anchor_mem
  rcases hheld with hheld | ⟨d, hd, ha⟩
  · rcases mem_holdings_iff.mp hheld with hroot | ⟨d, hd, ha⟩
    · exact Or.inl hroot
    · exact Or.inr ⟨⟨d, o.held d⟩, hmem d hd.held_ne_nil, Or.inr hd, ha⟩
  · exact Or.inr ⟨⟨d, o.held d⟩, hmem d (hP d hd).1, Or.inl hd, ha⟩

theorem held_mem_holdings {o : Objects} {roots : List Anchor} {e : Owner}
    (he : e.anchor ∈ o.holdings roots) {a : Anchor} (ha : a ∈ o.held e) :
    a ∈ o.holdings roots := by
  refine mem_holdings_iff.mpr (Or.inr ⟨e, ?_, ha⟩)
  refine survives_of_stable (P := (· = e)) ?_ rfl
  rintro d rfl
  exact ⟨List.ne_nil_of_mem ha, Or.inl he⟩

/-- If roots and containers take up nothing but what was held before and what is new (`N`), then
nothing else comes into existence. -/
theorem holdings_of_change {o o' : Objects} {roots roots' : List Anchor} {N : Anchor → Prop}
    (hroots : ∀ a ∈ roots', a ∈ o.holdings roots ∨ N a)
    (hheld : ∀ e, ∀ a ∈ o'.held e, a ∈ o.held e ∨ a ∈ o.holdings roots ∨ N a)
    (hnew : ∀ e, N e.anchor → ∀ a ∈ o'.held e, a ∈ o.holdings roots ∨ N a) :
    ∀ a ∈ o'.holdings roots', a ∈ o.holdings roots ∨ N a := by
  -- An old survivor of the change was held before: by old things or by other such survivors.
  have hold : ∀ e, o'.Survives roots' e → ¬ N e.anchor → o.held e ≠ [] → o.Survives roots e := by
    intro e he hN hne
    refine survives_of_stable
      (P := fun e => o'.Survives roots' e ∧ ¬ N e.anchor ∧ o.held e ≠ []) ?_ ⟨he, hN, hne⟩
    rintro d ⟨hd, hNd, hned⟩
    refine ⟨hned, ?_⟩
    rcases mem_holdings_iff.mp hd.anchor_mem with hroot | ⟨c, hc, ha⟩
    · exact Or.inl ((hroots _ hroot).resolve_right hNd)
    · by_cases hNc : N c.anchor
      · exact Or.inl ((hnew c hNc _ ha).resolve_right hNd)
      · rcases hheld c _ ha with ha | ha | ha
        · exact Or.inr ⟨c, ⟨hc, hNc, List.ne_nil_of_mem ha⟩, ha⟩
        · exact Or.inl ha
        · exact absurd ha hNd
  intro a ha
  rcases mem_holdings_iff.mp ha with hroot | ⟨e, he, ha⟩
  · exact hroots a hroot
  · by_cases hN : N e.anchor
    · exact hnew e hN a ha
    · rcases hheld e a ha with ha | ha | ha
      · have hsurvives := hold e he hN (List.ne_nil_of_mem ha)
        exact Or.inl (mem_holdings_iff.mpr (Or.inr ⟨e, hsurvives, ha⟩))
      · exact Or.inl ha
      · exact Or.inr ha

end Objects

end Deferred
