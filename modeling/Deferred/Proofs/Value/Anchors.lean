import Deferred.Proofs.Value.Map
import Deferred.Proofs.Value.Parts

set_option autoImplicit false

namespace Deferred

theorem mem_anchorsOfBundle_iff {a : Anchor} {es : List (Argument Value)} :
    a ∈ anchorsOfBundle es ↔ ∃ e ∈ es, ∃ v, e.value = some v ∧ a ∈ v.anchors := by
  induction es with
  | nil => simp [anchorsOfBundle]
  | cons e es ih =>
    obtain ⟨name, value⟩ := e
    cases value <;> simp [anchorsOfBundle, ih]

theorem anchorsOfValues_eq (vs : List Value) : anchorsOfValues vs = vs.flatMap Value.anchors := by
  induction vs with
  | nil => rfl
  | cons v vs ih => rw [anchorsOfValues, ih, List.flatMap_cons]

theorem anchorsOfEntries_eq (es : List (Entry Value)) :
    anchorsOfEntries es = es.flatMap (·.value.anchors) := by
  induction es with
  | nil => rfl
  | cons e es ih => rw [anchorsOfEntries, ih, List.flatMap_cons]

theorem mem_anchorsOfFormals_iff {a : Anchor} {fs : List (Formal Expression)} :
    a ∈ anchorsOfFormals fs ↔ ∃ f ∈ fs, ∃ n, f.default = some n ∧ a ∈ Node.anchors n := by
  induction fs with
  | nil => simp [anchorsOfFormals]
  | cons f fs ih =>
    obtain ⟨name, default⟩ := f
    cases default <;> simp [anchorsOfFormals, ih]

namespace Value

theorem mem_anchors_of_mem_values {items : Listing Value} {v : Value} (hv : v ∈ items.values)
    {a : Anchor} (ha : a ∈ v.anchors) : a ∈ (list items).anchors := by
  cases items with
  | plain vs =>
    rw [anchors, anchorsOfValues_eq]
    exact List.mem_flatMap.mpr ⟨v, hv, ha⟩
  | labelled es =>
    obtain ⟨e, he, rfl⟩ := List.mem_map.mp hv
    rw [anchors, anchorsOfEntries_eq]
    exact List.mem_flatMap.mpr ⟨e, he, ha⟩

theorem anchors_ofExpression (n : Expression) : (ofExpression n).anchors = Node.anchors n := by
  cases n with
  | ifElse c t e => cases e <;> rfl
  | constant v => rw [ofExpression, Node.anchors]
  | _ => rfl

end Value

mutual

theorem Node.anchors_eq : ∀ n : Expression, n.anchors = n.constants.flatMap Value.anchors
  | .constant v => by rw [Node.anchors, Node.constants, List.flatMap_singleton]
  | .symbol _ => rfl
  | .call _ as => by rw [Node.anchors, Node.constants, anchorsOfArguments_eq as]
  | .block ss => by rw [Node.anchors, Node.constants, anchorsOfNodes_eq ss]
  | .ifElse c t none => by
    rw [Node.anchors, Node.constants, Node.anchors_eq c, Node.anchors_eq t, List.flatMap_append]
  | .ifElse c t (some e) => by
    rw [Node.anchors, Node.constants, Node.anchors_eq c, Node.anchors_eq t, Node.anchors_eq e,
      List.flatMap_append, List.flatMap_append]
  | .whileLoop c b => by
    rw [Node.anchors, Node.constants, Node.anchors_eq c, Node.anchors_eq b, List.flatMap_append]
  | .repeatLoop b => by rw [Node.anchors, Node.constants, Node.anchors_eq b]
  | .forLoop _ s b => by
    rw [Node.anchors, Node.constants, Node.anchors_eq s, Node.anchors_eq b, List.flatMap_append]
  | .function fs b => by
    rw [Node.anchors, Node.constants, anchorsOfFormals_eq fs, Node.anchors_eq b,
      List.flatMap_append]
  | .assign _ v _ => by rw [Node.anchors, Node.constants, Node.anchors_eq v]
  | .binary _ l r => by
    rw [Node.anchors, Node.constants, Node.anchors_eq l, Node.anchors_eq r, List.flatMap_append]
  | .unary _ x => by rw [Node.anchors, Node.constants, Node.anchors_eq x]
  | .index b as _ => by
    rw [Node.anchors, Node.constants, Node.anchors_eq b, anchorsOfArguments_eq as,
      List.flatMap_append]
  | .field b _ => by rw [Node.anchors, Node.constants, Node.anchors_eq b]
  | .nextLoop => rfl
  | .breakLoop => rfl

theorem anchorsOfArguments_eq : ∀ as : List (Argument Expression),
    anchorsOfArguments as = (Node.constantsOfArguments as).flatMap Value.anchors
  | [] => rfl
  | ⟨_, none⟩ :: as => anchorsOfArguments_eq as
  | ⟨_, some n⟩ :: as => by
    rw [anchorsOfArguments, Node.constantsOfArguments, Node.anchors_eq n,
      anchorsOfArguments_eq as, List.flatMap_append]

theorem anchorsOfNodes_eq : ∀ ns : List Expression,
    anchorsOfNodes ns = (Node.constantsOfNodes ns).flatMap Value.anchors
  | [] => rfl
  | n :: ns => by
    rw [anchorsOfNodes, Node.constantsOfNodes, Node.anchors_eq n, anchorsOfNodes_eq ns,
      List.flatMap_append]

theorem anchorsOfFormals_eq : ∀ fs : List (Formal Expression),
    anchorsOfFormals fs = (Node.constantsOfFormals fs).flatMap Value.anchors
  | [] => rfl
  | ⟨_, none⟩ :: fs => anchorsOfFormals_eq fs
  | ⟨_, some n⟩ :: fs => by
    rw [anchorsOfFormals, Node.constantsOfFormals, Node.anchors_eq n, anchorsOfFormals_eq fs,
      List.flatMap_append]

end

theorem Node.mem_anchors_iff {n : Expression} {a : Anchor} :
    a ∈ n.anchors ↔ ∃ c ∈ n.constants, a ∈ c.anchors := by
  rw [Node.anchors_eq, List.mem_flatMap]

namespace Value

theorem mem_anchors_of_mem_children {c v : Value} (hc : c ∈ v.children) {a : Anchor}
    (ha : a ∈ c.anchors) : a ∈ v.anchors := by
  cases v with
  | language n => exact Node.mem_anchors_iff.2 ⟨c, hc, ha⟩
  | promise id n scope =>
    have hn : a ∈ n.anchors := Node.mem_anchors_iff.2 ⟨c, hc, ha⟩
    exact List.mem_cons_of_mem _ (List.mem_append_left _ hn)
  | bundle es =>
    obtain ⟨e, he, hv⟩ := List.mem_filterMap.1 hc
    exact mem_anchorsOfBundle_iff.2 ⟨e, he, c, hv, ha⟩
  | list items => exact mem_anchors_of_mem_values hc ha
  | closure id fs b scope =>
    refine List.mem_append_left _ ?_
    rw [anchorsOfFormals_eq, Node.anchors_eq, ← List.flatMap_append]
    exact List.mem_flatMap.2 ⟨c, hc, ha⟩
  | _ => exact absurd hc List.not_mem_nil

theorem PartOf.mem_anchors {c v : Value} (h : c.PartOf v) {a : Anchor} (ha : a ∈ c.anchors) :
    a ∈ v.anchors := by
  induction h with
  | self => exact ha
  | inside hc _ ih => exact mem_anchors_of_mem_children hc ih

end Value

section

variable {P : Anchor → Prop}

theorem anchors_map {α : Type} {g : α → Value} (hg : ∀ x, ∀ a ∈ (g x).anchors, P a) (n : Node α) :
    ∀ a ∈ (n.map g).anchors, P a := by
  intro a ha
  obtain ⟨c, hc, ha⟩ := Node.mem_anchors_iff.1 ha
  rw [Node.constants_map] at hc
  obtain ⟨x, -, rfl⟩ := List.mem_map.1 hc
  exact hg x a ha

theorem anchors_graft {σ : Symbol → Option Value}
    (hσ : ∀ x v, σ x = some v → ∀ a ∈ v.anchors, P a) (n : Expression)
    (hn : ∀ a ∈ n.anchors, P a) : ∀ a ∈ (n.graft σ).anchors, P a := by
  intro a ha
  obtain ⟨c, hc, ha⟩ := Node.mem_anchors_iff.1 ha
  refine Node.constants_graft (P := fun c => ∀ a ∈ c.anchors, P a) ?_ n ?_ c hc a ha
  · exact fun x v hv c hc a ha => hσ x v hv a (hc.mem_anchors ha)
  · exact fun c hc a ha => hn a (Node.mem_anchors_iff.2 ⟨c, hc, ha⟩)

end

section Congruence

variable {W : Kind → Type} {f g : {k : Kind} → Vec k → W k}

/-- Two maps take every vector among some anchors to the same. -/
def AgreeOn (f g : {k : Kind} → Vec k → W k) (as : List Anchor) : Prop :=
  ∀ {k : Kind} (w : Vec k), .vector w ∈ as → f w = g w

theorem AgreeOn.append {as bs : List Anchor} (h : AgreeOn f g (as ++ bs)) :
    AgreeOn f g as ∧ AgreeOn f g bs :=
  ⟨fun w hw => h w (List.mem_append_left _ hw), fun w hw => h w (List.mem_append_right _ hw)⟩

mutual

theorem Value.mapVectors_congr : ∀ v : Value, AgreeOn f g v.anchors →
    v.mapVectors f = v.mapVectors g
  | .null, _ => rfl
  | .vector w, h => by
    have hw := h w (by simp [Value.anchors])
    simp only [Value.mapVectors, hw]
  | .symbol _, _ => rfl
  | .language n, h => congrArg Value.language (Node.mapVectors_congr n h)
  | .promise id n scope, h => by
    have hn : AgreeOn f g (Node.anchors n) := fun w hw =>
      h w (by simp [Value.anchors, hw])
    simp only [Value.mapVectors, Node.mapVectors_congr n hn]
  | .bundle es, h => congrArg Value.bundle (mapVectorsOfBundle_congr es h)
  | .list (.plain vs), h => by
    simp only [Value.mapVectors, mapVectorsOfValues_congr vs h]
  | .list (.labelled es), h => by
    simp only [Value.mapVectors, mapVectorsOfEntries_congr es h]
  | .environment _, _ => rfl
  | .closure _ fs b _, h => by
    obtain ⟨hfb, _⟩ := h.append
    obtain ⟨hf, hb⟩ := hfb.append
    simp only [Value.mapVectors, mapVectorsOfFormals_congr fs hf, Node.mapVectors_congr b hb]

theorem Node.mapVectors_congr : ∀ n : Expression, AgreeOn f g (Node.anchors n) →
    n.mapVectors f = n.mapVectors g
  | .constant v, h => by
    rw [Node.anchors] at h
    simp only [Node.mapVectors, Value.mapVectors_congr v h]
  | .symbol _, _ => rfl
  | .call _ as, h => by simp only [Node.mapVectors, mapVectorsOfArguments_congr as h]
  | .block ss, h => by simp only [Node.mapVectors, mapVectorsOfNodes_congr ss h]
  | .ifElse c t none, h => by
    obtain ⟨hc, ht⟩ := h.append
    simp only [Node.mapVectors, Node.mapVectors_congr c hc, Node.mapVectors_congr t ht]
  | .ifElse c t (some e), h => by
    obtain ⟨hct, he⟩ := h.append
    obtain ⟨hc, ht⟩ := hct.append
    simp only [Node.mapVectors, Node.mapVectors_congr c hc, Node.mapVectors_congr t ht,
      Node.mapVectors_congr e he]
  | .whileLoop c b, h => by
    obtain ⟨hc, hb⟩ := h.append
    simp only [Node.mapVectors, Node.mapVectors_congr c hc, Node.mapVectors_congr b hb]
  | .repeatLoop b, h => by simp only [Node.mapVectors, Node.mapVectors_congr b h]
  | .forLoop _ s b, h => by
    obtain ⟨hs, hb⟩ := h.append
    simp only [Node.mapVectors, Node.mapVectors_congr s hs, Node.mapVectors_congr b hb]
  | .function fs b, h => by
    obtain ⟨hf, hb⟩ := h.append
    simp only [Node.mapVectors, mapVectorsOfFormals_congr fs hf, Node.mapVectors_congr b hb]
  | .assign _ v _, h => by simp only [Node.mapVectors, Node.mapVectors_congr v h]
  | .binary _ l r, h => by
    obtain ⟨hl, hr⟩ := h.append
    simp only [Node.mapVectors, Node.mapVectors_congr l hl, Node.mapVectors_congr r hr]
  | .unary _ x, h => by simp only [Node.mapVectors, Node.mapVectors_congr x h]
  | .index b as _, h => by
    obtain ⟨hb, has⟩ := h.append
    simp only [Node.mapVectors, Node.mapVectors_congr b hb, mapVectorsOfArguments_congr as has]
  | .field b _, h => by simp only [Node.mapVectors, Node.mapVectors_congr b h]
  | .nextLoop, _ => rfl
  | .breakLoop, _ => rfl

theorem mapVectorsOfArguments_congr : ∀ as : List (Argument Expression),
    AgreeOn f g (anchorsOfArguments as) → mapVectorsOfArguments f as = mapVectorsOfArguments g as
  | [], _ => rfl
  | ⟨_, none⟩ :: as, h => by simp only [mapVectorsOfArguments, mapVectorsOfArguments_congr as h]
  | ⟨_, some n⟩ :: as, h => by
    obtain ⟨hn, has⟩ := h.append
    simp only [mapVectorsOfArguments, Node.mapVectors_congr n hn,
      mapVectorsOfArguments_congr as has]

theorem mapVectorsOfNodes_congr : ∀ ns : List Expression,
    AgreeOn f g (anchorsOfNodes ns) → mapVectorsOfNodes f ns = mapVectorsOfNodes g ns
  | [], _ => rfl
  | n :: ns, h => by
    obtain ⟨hn, hns⟩ := h.append
    simp only [mapVectorsOfNodes, Node.mapVectors_congr n hn, mapVectorsOfNodes_congr ns hns]

theorem mapVectorsOfFormals_congr : ∀ fs : List (Formal Expression),
    AgreeOn f g (anchorsOfFormals fs) → mapVectorsOfFormals f fs = mapVectorsOfFormals g fs
  | [], _ => rfl
  | ⟨_, none⟩ :: fs, h => by simp only [mapVectorsOfFormals, mapVectorsOfFormals_congr fs h]
  | ⟨_, some n⟩ :: fs, h => by
    obtain ⟨hn, hfs⟩ := h.append
    simp only [mapVectorsOfFormals, Node.mapVectors_congr n hn, mapVectorsOfFormals_congr fs hfs]

theorem mapVectorsOfBundle_congr : ∀ es : List (Argument Value),
    AgreeOn f g (anchorsOfBundle es) → mapVectorsOfBundle f es = mapVectorsOfBundle g es
  | [], _ => rfl
  | ⟨_, none⟩ :: es, h => by simp only [mapVectorsOfBundle, mapVectorsOfBundle_congr es h]
  | ⟨_, some v⟩ :: es, h => by
    obtain ⟨hv, hes⟩ := h.append
    simp only [mapVectorsOfBundle, Value.mapVectors_congr v hv, mapVectorsOfBundle_congr es hes]

theorem mapVectorsOfValues_congr : ∀ vs : List Value,
    AgreeOn f g (anchorsOfValues vs) → mapVectorsOfValues f vs = mapVectorsOfValues g vs
  | [], _ => rfl
  | v :: vs, h => by
    obtain ⟨hv, hvs⟩ := h.append
    simp only [mapVectorsOfValues, Value.mapVectors_congr v hv, mapVectorsOfValues_congr vs hvs]

theorem mapVectorsOfEntries_congr : ∀ es : List (Entry Value),
    AgreeOn f g (anchorsOfEntries es) → mapVectorsOfEntries f es = mapVectorsOfEntries g es
  | [], _ => rfl
  | ⟨_, v⟩ :: es, h => by
    obtain ⟨hv, hes⟩ := h.append
    simp only [mapVectorsOfEntries, Value.mapVectors_congr v hv, mapVectorsOfEntries_congr es hes]

end

end Congruence

end Deferred
