import Deferred.Proofs.Session.Views
import Deferred.Proofs.Value.Exchange

set_option autoImplicit false

namespace Deferred

namespace Session

/-- After any commands, sameness is an equivalence on values, expressions, arguments and parameters.
What has an identity is compared by it, and a vector by its elements: it can be exchanged for any
vector in existence with the same elements, for its materialization and for a copy. Expressions and
values that differ in exchanged vectors are the same, at whatever depth and in however many places
those stand. -/
theorem run_sameness (commands : List Command) :
    let s := empty.run commands
    let st := s.store
    ((Equivalence fun v w : Value => st.sameValue v w = true) ∧
      (Equivalence fun m n : Expression => st.sameNode m n = true) ∧
      (Equivalence fun as bs : List (Argument Expression) => st.sameArguments as bs = true) ∧
      Equivalence fun fs gs : List (Formal Expression) => st.sameFormals fs gs = true) ∧
    ((∀ (i j : PromiseId) (m n : Expression) (e f : Option EnvironmentId),
        st.sameValue (.promise i m e) (.promise j n f) = true ↔ i = j) ∧
      (∀ i j : EnvironmentId, st.sameValue (.environment i) (.environment j) = true ↔ i = j) ∧
      ∀ (i j : ClosureId) (fs gs : List (Formal Expression)) (b c : Expression)
        (e f : EnvironmentId),
        st.sameValue (.closure i fs b e) (.closure j gs c f) = true ↔ i = j) ∧
    (∀ {k : Kind} (v w : Vec k), s.Live v → s.Live w →
      (st.sameValue (.vector v) (.vector w) = true ↔
        List.Forall₂ (fun x y => k.same x y = true) (v.elements st) (w.elements st)) ∧
      (st.sameValue (.vector v) (.vector w) = true → v.Exchangeable st w)) ∧
    (∀ {k : Kind} (v : Vec k), s.Live v →
      ∀ made ∈ [(v, st), v.materialize st, v.copy st],
        v.Exchangeable made.2 made.1 ∧
          ∀ {j : Kind} (u : Vec j), s.Live u → u.Exchangeable made.2 u) ∧
    ∀ st' : Store,
      (∀ n : Expression st'.Exchange,
        st'.sameNode (n.mapVectors Store.Exchange.before)
          (n.mapVectors Store.Exchange.after) = true) ∧
      ∀ v : Value st'.Exchange,
        st'.sameValue (v.mapVectors Store.Exchange.before)
          (v.mapVectors Store.Exchange.after) = true := by
  intro s st
  refine ⟨⟨st.sameValue_equivalence, st.sameNode_equivalence, st.sameArguments_equivalence,
    st.sameFormals_equivalence⟩, ⟨?_, ?_, ?_⟩, fun v w hv hw => ?_, fun v hv made hmade => ?_,
    fun _ => ⟨fun n => (Store.sameNode_exchange n).test,
      fun v => (Store.sameValue_exchange v).test⟩⟩
  · intro i j m n e f
    simp only [Store.sameValue, decide_eq_true_eq]
  · intro i j
    simp only [Store.sameValue, decide_eq_true_eq]
  · intro i j fs gs b c e f
    simp only [Store.sameValue, decide_eq_true_eq]
  · have hvs : v.Sound st := hv.sound
    have hws : w.Sound st := hw.sound
    have hsame := Vec.same_iff_forall₂ hvs hws
    rw [Store.sameValue, Value.vector?_self]
    exact ⟨hsame, fun h => hvs.exchangeable hws (hsame.1 h)⟩
  · have hvs : v.Sound st := hv.sound
    have hmakes : Vec.Makes st made (v.plain st) := by
      simp only [List.mem_cons, List.not_mem_nil, or_false] at hmade
      rcases hmade with rfl | rfl | rfl
      · exact .of_sound hvs
      · exact Vec.makes_materialize hvs
      · exact Vec.makes_copy hvs
    obtain ⟨hexchange, hstay⟩ := hmakes.exchangeable hvs
    exact ⟨hexchange, fun u hu => hstay u hu.sound⟩

/-- A missing number, one that is no number and a zero, gathered from a vector with the other zero:
exchanged in a list in a quoted call. -/
theorem run_sameness_gathered :
    let x := Register.named "x"
    let y := Register.named "y"
    let z := Register.named "z"
    let f : Symbol := ⟨"f"⟩
    let odd : Double := ⟨0x7FF800000000002A⟩
    let NA := Kind.missingDouble
    let s := empty.run [.vector x .double [odd, NA, ⟨0⟩],
      .vector y .double [⟨0x8000000000000000⟩, odd], .vector z .int [2, Kind.missingInt, 1],
      .gather y y z]
    let v : Vec .double := .dense ⟨0⟩
    let w : Vec .double := .subset (.dense ⟨1⟩) 2 (.dense ⟨0⟩)
    let quoted (u : Vec .double) : Value :=
      .language (.call f [⟨none, some (.constant (.list (.plain [.vector u, .null])))⟩])
    s.Live v ∧ s.Live w ∧ w.elements s.store = [odd, NA, ⟨0x8000000000000000⟩] ∧
      s.store.sameValue (.vector v) (.vector w) = true ∧ v.Exchangeable s.store w ∧
      s.store.sameValue (quoted v) (quoted w) = true := by
  intro x y z f odd NA s v w quoted
  have hv : s.Live v := live_of_value? (r := x) rfl
  have hw : s.Live w := live_of_value? (r := y) rfl
  obtain ⟨-, -, hvectors, -, hexchanged⟩ := run_sameness [.vector x .double [odd, NA, ⟨0⟩],
    .vector y .double [⟨0x8000000000000000⟩, odd], .vector z .int [2, Kind.missingInt, 1],
    .gather y y z]
  have hsame : s.store.sameValue (.vector v) (.vector w) = true := by decide +kernel
  have hexchangeable : v.Exchangeable s.store w := (hvectors v w hv hw).2 hsame
  refine ⟨hv, hw, by decide +kernel, hsame, hexchangeable, ?_⟩
  obtain ⟨e, hbefore, hafter⟩ := hexchangeable
  rw [← hbefore, ← hafter]
  exact (hexchanged s.store).2
    (.language (.call f [⟨none, some (.constant (.list (.plain [.vector e, .null])))⟩]))

end Session

end Deferred
