import Deferred.Proofs.Substitution.Outcome

set_option autoImplicit false

namespace Deferred

namespace Node

variable {α β : Type}

mutual

/-- The constants of an expression, from left to right. -/
def constants : Node α → List α
  | .constant v => [v]
  | .symbol _ => []
  | .call _ as => constantsOfArguments as
  | .block ss => constantsOfNodes ss
  | .ifElse c t none => constants c ++ constants t
  | .ifElse c t (some e) => constants c ++ constants t ++ constants e
  | .whileLoop c b => constants c ++ constants b
  | .repeatLoop b => constants b
  | .forLoop _ s b => constants s ++ constants b
  | .function fs b => constantsOfFormals fs ++ constants b
  | .assign _ v _ => constants v
  | .binary _ l r => constants l ++ constants r
  | .unary _ x => constants x
  | .index b as _ => constants b ++ constantsOfArguments as
  | .field b _ => constants b
  | .nextLoop => []
  | .breakLoop => []

def constantsOfArguments : List (Argument (Node α)) → List α
  | [] => []
  | ⟨_, none⟩ :: as => constantsOfArguments as
  | ⟨_, some n⟩ :: as => constants n ++ constantsOfArguments as

def constantsOfNodes : List (Node α) → List α
  | [] => []
  | n :: ns => constants n ++ constantsOfNodes ns

def constantsOfFormals : List (Formal (Node α)) → List α
  | [] => []
  | ⟨_, none⟩ :: fs => constantsOfFormals fs
  | ⟨_, some n⟩ :: fs => constants n ++ constantsOfFormals fs

end

mutual

theorem constants_map (f : α → β) : ∀ n : Node α, (n.map f).constants = n.constants.map f
  | .constant _ => rfl
  | .symbol _ => rfl
  | .call _ as => by rw [map, constants, constants, constants_mapArguments f as]
  | .block ss => by rw [map, constants, constants, constants_mapNodes f ss]
  | .ifElse c t none => by
    rw [map, constants, constants, constants_map f c, constants_map f t, List.map_append]
  | .ifElse c t (some e) => by
    rw [map, constants, constants, constants_map f c, constants_map f t, constants_map f e,
      List.map_append, List.map_append]
  | .whileLoop c b => by
    rw [map, constants, constants, constants_map f c, constants_map f b, List.map_append]
  | .repeatLoop b => by rw [map, constants, constants, constants_map f b]
  | .forLoop _ s b => by
    rw [map, constants, constants, constants_map f s, constants_map f b, List.map_append]
  | .function fs b => by
    rw [map, constants, constants, constants_mapFormals f fs, constants_map f b, List.map_append]
  | .assign _ v _ => by rw [map, constants, constants, constants_map f v]
  | .binary _ l r => by
    rw [map, constants, constants, constants_map f l, constants_map f r, List.map_append]
  | .unary _ x => by rw [map, constants, constants, constants_map f x]
  | .index b as _ => by
    rw [map, constants, constants, constants_map f b, constants_mapArguments f as,
      List.map_append]
  | .field b _ => by rw [map, constants, constants, constants_map f b]
  | .nextLoop => rfl
  | .breakLoop => rfl

theorem constants_mapArguments (f : α → β) : ∀ as : List (Argument (Node α)),
    constantsOfArguments (mapArguments f as) = (constantsOfArguments as).map f
  | [] => rfl
  | ⟨_, none⟩ :: as => constants_mapArguments f as
  | ⟨_, some n⟩ :: as => by
    rw [mapArguments, constantsOfArguments, constantsOfArguments, constants_map f n,
      constants_mapArguments f as, List.map_append]

theorem constants_mapNodes (f : α → β) : ∀ ns : List (Node α),
    constantsOfNodes (mapNodes f ns) = (constantsOfNodes ns).map f
  | [] => rfl
  | n :: ns => by
    rw [mapNodes, constantsOfNodes, constantsOfNodes, constants_map f n, constants_mapNodes f ns,
      List.map_append]

theorem constants_mapFormals (f : α → β) : ∀ fs : List (Formal (Node α)),
    constantsOfFormals (mapFormals f fs) = (constantsOfFormals fs).map f
  | [] => rfl
  | ⟨_, none⟩ :: fs => constants_mapFormals f fs
  | ⟨_, some n⟩ :: fs => by
    rw [mapFormals, constantsOfFormals, constantsOfFormals, constants_map f n,
      constants_mapFormals f fs, List.map_append]

end

theorem constantsOfArguments_append (as bs : List (Argument (Node α))) :
    constantsOfArguments (as ++ bs) = constantsOfArguments as ++ constantsOfArguments bs := by
  induction as with
  | nil => rfl
  | cons a as ih =>
    obtain ⟨name, value⟩ := a
    cases value with
    | none => exact ih
    | some n =>
      rw [List.cons_append, constantsOfArguments, constantsOfArguments, ih, List.append_assoc]

theorem mem_constantsOfFormals_iff {c : α} {fs : List (Formal (Node α))} :
    c ∈ constantsOfFormals fs ↔ ∃ f ∈ fs, ∃ n, f.default = some n ∧ c ∈ n.constants := by
  induction fs with
  | nil => simp [constantsOfFormals]
  | cons f fs ih =>
    obtain ⟨name, default⟩ := f
    cases default <;> simp [constantsOfFormals, ih]

end Node

variable {V : Kind → Type}

namespace Value

/-- What a value is directly made of. -/
def children : Value V → List (Value V)
  | language n => n.constants
  | promise _ n _ => n.constants
  | bundle es => es.filterMap (·.value)
  | list items => items.values
  | closure _ fs b _ => Node.constantsOfFormals fs ++ b.constants
  | _ => []

/-- A value is part of another at some depth, or is that other one. -/
inductive PartOf (w : Value V) : Value V → Prop
  | self : PartOf w w
  | inside {c v : Value V} (mem : c ∈ v.children) (part : PartOf w c) : PartOf w v

theorem partOf_iff {w v : Value V} : w.PartOf v ↔ w = v ∨ ∃ c ∈ v.children, w.PartOf c := by
  constructor
  · rintro (_ | ⟨hc, h⟩)
    · exact Or.inl rfl
    · exact Or.inr ⟨_, hc, h⟩
  · rintro (rfl | ⟨c, hc, h⟩)
    · exact .self
    · exact .inside hc h

theorem PartOf.trans {u v w : Value V} (h : u.PartOf v) (h' : v.PartOf w) : u.PartOf w := by
  induction h' with
  | self => exact h
  | inside hc _ ih => exact .inside hc ih

theorem partOf_of_mem_children {c v : Value V} (h : c ∈ v.children) : c.PartOf v := .inside h .self

theorem partOf_of_mem_constants_tree {c v : Value V} (h : c ∈ v.tree.constants) : c.PartOf v := by
  cases v with
  | promise id n scope =>
    rw [tree_promise] at h
    exact partOf_of_mem_children h
  | language n =>
    rw [tree_language] at h
    exact partOf_of_mem_children h
  | _ =>
    obtain rfl := List.mem_singleton.1 h
    exact .self

theorem partOf_of_mem_constants_ofEntry {c : Value V} {es : List (Argument (Value V))}
    (h : c ∈ Node.constantsOfArguments (es.map Argument.ofEntry)) : c.PartOf (.bundle es) := by
  have hchild : ∃ v ∈ (bundle es).children, c.PartOf v := by
    induction es with
    | nil => exact absurd h List.not_mem_nil
    | cons e es ih =>
      obtain ⟨name, _ | v⟩ := e
      · have htail : c ∈ Node.constantsOfArguments (es.map Argument.ofEntry) := by
          cases name <;> exact h
        exact ih htail
      · rw [List.map_cons, Argument.ofEntry, Node.constantsOfArguments] at h
        rcases List.mem_append.1 h with h | h
        · exact ⟨v, List.mem_cons_self, partOf_of_mem_constants_tree h⟩
        · obtain ⟨w, hw, hc⟩ := ih h
          exact ⟨w, List.mem_cons_of_mem v hw, hc⟩
  obtain ⟨v, hv, hc⟩ := hchild
  exact .inside hv hc

end Value

namespace Node

variable {σ : Symbol → Option (Value V)} {P : Value V → Prop}

mutual

/-- What holds of the constants of an expression and of all parts of the bindings holds of the
constants of the result. -/
theorem constants_graft (hσ : ∀ x v, σ x = some v → ∀ c, c.PartOf v → P c) :
    ∀ n : Expression V, (∀ c ∈ n.constants, P c) → ∀ c ∈ (n.graft σ).constants, P c
  | .constant _, hn, c, h => hn c (by simpa only [graft] using h)
  | .symbol name, _, c, h => by
    rw [graft] at h
    cases hx : σ name with
    | none => simp [hx, constants] at h
    | some v =>
      rw [hx, Option.map_some, Option.getD_some] at h
      exact hσ name v hx c (Value.partOf_of_mem_constants_tree h)
  | .call _ as, hn, c, h => constants_graftArguments hσ as hn c h
  | .block ss, hn, c, h => constants_graftNodes hσ ss hn c h
  | .ifElse d t none, hn, c, h => by
    obtain ⟨hd, ht⟩ := List.forall_mem_append.1 hn
    rcases List.mem_append.1 h with h | h
    · exact constants_graft hσ d hd c h
    · exact constants_graft hσ t ht c h
  | .ifElse d t (some e), hn, c, h => by
    obtain ⟨hdt, he⟩ := List.forall_mem_append.1 hn
    obtain ⟨hd, ht⟩ := List.forall_mem_append.1 hdt
    rcases List.mem_append.1 h with h | h
    · rcases List.mem_append.1 h with h | h
      · exact constants_graft hσ d hd c h
      · exact constants_graft hσ t ht c h
    · exact constants_graft hσ e he c h
  | .whileLoop d b, hn, c, h => by
    obtain ⟨hd, hb⟩ := List.forall_mem_append.1 hn
    rcases List.mem_append.1 h with h | h
    · exact constants_graft hσ d hd c h
    · exact constants_graft hσ b hb c h
  | .repeatLoop b, hn, c, h => constants_graft hσ b hn c h
  | .forLoop _ s b, hn, c, h => by
    obtain ⟨hs, hb⟩ := List.forall_mem_append.1 hn
    rcases List.mem_append.1 h with h | h
    · exact constants_graft hσ s hs c h
    · exact constants_graft hσ b hb c h
  | .function fs b, hn, c, h => by
    obtain ⟨hf, hb⟩ := List.forall_mem_append.1 hn
    rcases List.mem_append.1 h with h | h
    · exact constants_graftFormals hσ fs hf c h
    · exact constants_graft hσ b hb c h
  | .assign _ v _, hn, c, h => constants_graft hσ v hn c h
  | .binary _ l r, hn, c, h => by
    obtain ⟨hl, hr⟩ := List.forall_mem_append.1 hn
    rcases List.mem_append.1 h with h | h
    · exact constants_graft hσ l hl c h
    · exact constants_graft hσ r hr c h
  | .unary _ x, hn, c, h => constants_graft hσ x hn c h
  | .index b as _, hn, c, h => by
    obtain ⟨hb, has⟩ := List.forall_mem_append.1 hn
    rcases List.mem_append.1 h with h | h
    · exact constants_graft hσ b hb c h
    · exact constants_graftArguments hσ as has c h
  | .field b _, hn, c, h => constants_graft hσ b hn c h
  | .nextLoop, _, c, h => by simp [graft, constants] at h
  | .breakLoop, _, c, h => by simp [graft, constants] at h

theorem constants_graftArguments (hσ : ∀ x v, σ x = some v → ∀ c, c.PartOf v → P c) :
    ∀ as : List (Argument (Expression V)), (∀ c ∈ constantsOfArguments as, P c) →
      ∀ c ∈ constantsOfArguments (graftArguments σ as), P c
  | [], _, c, h => by simp [graftArguments, constantsOfArguments] at h
  | ⟨_, none⟩ :: as, hn, c, h => constants_graftArguments hσ as hn c h
  | ⟨_, some n⟩ :: as, hn, c, h => by
    obtain ⟨hn, has⟩ := List.forall_mem_append.1 hn
    rw [graftArguments, constantsOfArguments_append] at h
    rcases List.mem_append.1 h with h | h
    · cases hb : n.bundle? σ with
      | none =>
        simp only [hb, constantsOfArguments, List.append_nil] at h
        exact constants_graft hσ n hn c h
      | some es =>
        simp only [hb] at h
        have hdots := bind_bundle?_eq_some_iff.1 (bind_of_bundle?_eq_some hb)
        exact hσ Symbol.dots _ hdots c (Value.partOf_of_mem_constants_ofEntry h)
    · exact constants_graftArguments hσ as has c h

theorem constants_graftNodes (hσ : ∀ x v, σ x = some v → ∀ c, c.PartOf v → P c) :
    ∀ ns : List (Expression V), (∀ c ∈ constantsOfNodes ns, P c) →
      ∀ c ∈ constantsOfNodes (graftNodes σ ns), P c
  | [], _, c, h => by simp [graftNodes, constantsOfNodes] at h
  | n :: ns, hn, c, h => by
    obtain ⟨hn, hns⟩ := List.forall_mem_append.1 hn
    rcases List.mem_append.1 h with h | h
    · exact constants_graft hσ n hn c h
    · exact constants_graftNodes hσ ns hns c h

theorem constants_graftFormals (hσ : ∀ x v, σ x = some v → ∀ c, c.PartOf v → P c) :
    ∀ fs : List (Formal (Expression V)), (∀ c ∈ constantsOfFormals fs, P c) →
      ∀ c ∈ constantsOfFormals (graftFormals σ fs), P c
  | [], _, c, h => by simp [graftFormals, constantsOfFormals] at h
  | ⟨_, none⟩ :: fs, hn, c, h => constants_graftFormals hσ fs hn c h
  | ⟨_, some n⟩ :: fs, hn, c, h => by
    obtain ⟨hn, hfs⟩ := List.forall_mem_append.1 hn
    rcases List.mem_append.1 h with h | h
    · exact constants_graft hσ n hn c h
    · exact constants_graftFormals hσ fs hfs c h

end

end Node

end Deferred
