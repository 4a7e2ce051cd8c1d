import Deferred.Proofs.Session.Made
import Deferred.Proofs.Value.Shown

set_option autoImplicit false

namespace Deferred

theorem Scene.ClosuresAgree.coherent {s : Scene} (h : s.ClosuresAgree) : Coherent s.Holds where
  children {v} hv c hc := by
    have hpart : c.PartOf v := Value.partOf_of_mem_children hc
    cases hv with
    | register mem part => exact .register mem (hpart.trans part)
    | binding mem part => exact .binding mem (hpart.trans part)
    | outcome fulfilled part => exact .outcome fulfilled (hpart.trans part)
  closures := h.eq

namespace Session

/-- After any commands, two values of the session that are the same show as many doubles, which are
equal in bits or both zero, and nothing else that could differ: the texts are the same if and only
if these doubles are, so only the sign of a zero can tell them apart. This goes for expressions as
well. -/
theorem run_same_text (commands : List Command) :
    let s := empty.run commands
    let st := s.store
    let equalOrZeros (x y : Double) : Prop := x = y ∨ x.magnitude = 0 ∧ y.magnitude = 0
    (∀ v w : Value, s.Holds v → s.Holds w → st.sameValue v w = true →
      List.Forall₂ equalOrZeros (st.valueDoubles v) (st.valueDoubles w) ∧
        (s.heap.valueText v = s.heap.valueText w ↔ st.valueDoubles v = st.valueDoubles w)) ∧
    ∀ m n : Expression, (∀ c ∈ m.constants, s.Holds c) → (∀ c ∈ n.constants, s.Holds c) →
      st.sameNode m n = true →
      List.Forall₂ equalOrZeros (st.nodeDoubles m) (st.nodeDoubles n) ∧
        (s.heap.nodeText m = s.heap.nodeText n ↔ st.nodeDoubles m = st.nodeDoubles n) := by
  intro s st equalOrZeros
  have hcoherent : Coherent s.Holds := (closuresAgree commands).coherent
  have hspell {xs ys : List Double} {a b : String} (h : Shown xs ys a b) :
      List.Forall₂ equalOrZeros xs ys ∧ (a = b ↔ xs = ys) :=
    ⟨h.same.imp fun x y => (Double.same_iff x y).1, h.eq_iff⟩
  refine ⟨fun v w hv hw hsame => hspell ?_, fun m n hm hn hsame => hspell ?_⟩
  · exact (Store.sameValue_iff.1 hsame).shown (h := s.heap) hcoherent hv hw
  · exact (Store.sameNode_iff.1 hsame).shown (h := s.heap) hcoherent hm hn

/-- In a quoted call a zero has the same text as its block, and another than the other zero. -/
theorem run_same_text_quoted_zeros :
    let x := Register.named "x"
    let y := Register.named "y"
    let z := Register.named "z"
    let quoted (r : Register) : Node Register := .call ⟨"f"⟩ [⟨some ⟨"a"⟩, some (.constant r)⟩]
    let s := empty.run [.scalar x .double ⟨0⟩, .materialize y x,
      .scalar z .double ⟨0x8000000000000000⟩, .quote x (quoted x), .quote y (quoted y),
      .quote z (quoted z)]
    let v := s.read x
    let w := s.read y
    let u := s.read z
    s.Holds v ∧ s.Holds w ∧ s.Holds u ∧ s.store.sameValue v w = true ∧
      s.store.sameValue v u = true ∧ s.heap.valueText v = s.heap.valueText w ∧
      s.heap.valueText v ≠ s.heap.valueText u := by
  intro x y z quoted s v w u
  have hv : s.Holds v := .register (mem_of_lookup (r := x) rfl) .self
  have hw : s.Holds w := .register (mem_of_lookup (r := y) rfl) .self
  have hu : s.Holds u := .register (mem_of_lookup (r := z) rfl) .self
  have hvw : s.store.sameValue v w = true := by decide +kernel
  have hvu : s.store.sameValue v u = true := by decide +kernel
  obtain ⟨hvalues, -⟩ := run_same_text [.scalar x .double ⟨0⟩, .materialize y x,
    .scalar z .double ⟨0x8000000000000000⟩, .quote x (quoted x), .quote y (quoted y),
    .quote z (quoted z)]
  refine ⟨hv, hw, hu, hvw, hvu, (hvalues v w hv hw hvw).2.2 (by decide +kernel), fun he => ?_⟩
  have hdoubles := (hvalues v u hv hu hvu).2.1 he
  exact absurd hdoubles (by decide +kernel)

/-- Constants that are the same with other texts: the two zeros. -/
theorem run_zeros_same_with_other_texts :
    let x := Register.named "x"
    let y := Register.named "y"
    let s := empty.run [.scalar x .double ⟨0⟩, .scalar y .double ⟨0x8000000000000000⟩]
    s.store.sameNode (.constant (s.read x)) (.constant (s.read y)) = true ∧
      s.heap.nodeText (.constant (s.read x)) = "0" ∧
      s.heap.nodeText (.constant (s.read y)) = "-0" := by
  decide +kernel

end Session

end Deferred
