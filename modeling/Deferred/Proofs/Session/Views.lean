import Deferred.Proofs.Conversions
import Deferred.Proofs.Session.Run

set_option autoImplicit false

namespace Deferred

variable {k : Kind}

namespace Session

/-- The vector is in existence, by itself or behind other vectors. -/
def Live (s : Session) (v : Vec k) : Prop :=
  ∃ (j : Kind) (w : Vec j), .vector w ∈ s.holdings ∧ ⟨k, v⟩ ∈ w.layers

theorem live_of_value? {s : Session} {r : Register} {v : Vec k}
    (h : s.value? r = some (.vector v)) : s.Live v := by
  refine ⟨k, v, Scene.mem_holdings_of_value? h (List.mem_singleton.mpr rfl), ?_⟩
  cases v <;> simp [Vec.layers]

theorem Live.sound {commands : List Command} {v : Vec k} (h : (empty.run commands).Live v) :
    v.Sound (empty.run commands).store := by
  obtain ⟨j, w, hw, hv⟩ := h
  exact ((Mirrors.empty.run commands).sound hw).of_mem_layers hv

/-- After any commands, a gather through a gather is one gather through the gathered positions, and
a conversion may be made before a gather or an exclusion as well as after it. A position that leads
to no element is read as the missing one, along every way. -/
theorem run_views_commute (commands : List Command) {v : Vec k} {a b : Vec .int}
    (hv : (empty.run commands).Live v) (ha : (empty.run commands).Live a)
    (hb : (empty.run commands).Live b) :
    let st := (empty.run commands).store
    (((v.gather a st).gather b st).Alike st (v.gather (a.gather b st) st) st ∧
      ∀ i, ((v.gather a st).gather b st).element? st i =
        (b.element? st i).map fun j => v.pick st (a.pick st j)) ∧
    ∀ t : Kind,
      let before := v.coerce t st
      let after := (v.gather a st).coerce t st
      (after.1.Alike after.2 (before.1.gather a before.2) before.2 ∧
        ∀ i, (before.1.gather a before.2).element? before.2 i =
          (a.element? st i).map fun j => Kind.convert k t (v.pick st j)) ∧
      ∀ i,
        (v.size st ≤ i → v.exclude i st = none ∧ before.1.exclude i before.2 = none) ∧
        (i < v.size st →
          ∃ x y, v.exclude i st = some x ∧ before.1.exclude i before.2 = some y ∧
            let after := x.coerce t st
            after.1.Alike after.2 y before.2) := by
  intro st
  have hvs : v.Sound st := hv.sound
  have has : a.Sound st := ha.sound
  have hbs : b.Sound st := hb.sound
  refine ⟨⟨hvs.gather_gather has hbs, hvs.element_gather_gather has hbs⟩, fun t => ?_⟩
  refine ⟨⟨hvs.coerce_gather has t, hvs.element_coerce_gather has t⟩, fun i => ?_⟩
  exact ⟨hvs.exclude_coerce_of_le t, hvs.coerce_exclude t⟩

/-- A scalar is converted at once, and what is gathered from it when it is read. -/
theorem run_views_commute_scalar :
    let x := Register.named "x"
    let y := Register.named "y"
    let z := Register.named "z"
    let half : Double := ⟨0x4004000000000000⟩
    let s := empty.run [.scalar x .double half, .vector y .int [2, 1, 0],
      .vector z .int [2, Kind.missingInt, 4, 1]]
    let v : Vec .double := .dense ⟨0⟩
    let a : Vec .int := .dense ⟨0⟩
    let b : Vec .int := .dense ⟨1⟩
    let NA := Kind.missingDouble
    s.Live v ∧ s.Live a ∧ s.Live b ∧
      ((v.gather a s.store).gather b s.store).elements s.store = [half, NA, NA, NA] ∧
      ((v.gather a s.store).gather b s.store).Alike s.store
        (v.gather (a.gather b s.store) s.store) s.store ∧
      let before := v.coerce .int s.store
      let after := (v.gather a s.store).coerce .int s.store
      before.1.encoding before.2 = .scalar ∧ after.1.encoding after.2 = .view ∧
        after.1.elements after.2 = [Kind.missingInt, 2, Kind.missingInt] ∧
        after.1.Alike after.2 (before.1.gather a before.2) before.2 := by
  intro x y z half s v a b NA
  have hv : s.Live v := live_of_value? (r := x) rfl
  have ha : s.Live a := live_of_value? (r := y) rfl
  have hb : s.Live b := live_of_value? (r := z) rfl
  obtain ⟨⟨hgather, -⟩, hcoerce⟩ := run_views_commute [.scalar x .double half,
    .vector y .int [2, 1, 0], .vector z .int [2, Kind.missingInt, 4, 1]] hv ha hb
  obtain ⟨⟨hint, -⟩, -⟩ := hcoerce .int
  exact ⟨hv, ha, hb, by decide +kernel, hgather, by decide +kernel, by decide +kernel,
    by decide +kernel, hint⟩

/-- After any commands, conversions in turn lose nothing that the kinds between can hold: by way of
a kind that is at least as wide, a vector becomes what it becomes directly, and its old self if its
own kind is the last. A double becomes the integer that its exact value is cut to, and missing if
there is no such integer. -/
theorem run_conversions_lossless (commands : List Command) :
    let s := empty.run commands
    let st := s.store
    (∀ {k : Kind} (v : Vec k), s.Live v → ∀ t : Kind, k.width ≤ t.width →
      let wider := v.coerce t st
      let back := wider.1.coerce k wider.2
      back.1.Alike back.2 v st ∧
        ∀ u : Kind,
          let chained := wider.1.coerce u wider.2
          let direct := v.coerce u st
          chained.1.Alike chained.2 direct.1 direct.2) ∧
    ∀ v : Vec .double, s.Live v →
      let cut := v.coerce .int st
      cut.1.size cut.2 = v.size st ∧
        ∀ i x, v.element? st i = some x →
          ∃ n, cut.1.element? cut.2 i = some n ∧ ∀ m, x.CutsTo m ↔ m = n := by
  intro s st
  refine ⟨fun v hv t ht => ?_, fun v hv => ?_⟩
  · have hsound : v.Sound st := hv.sound
    exact ⟨hsound.coerce_back ht, hsound.coerce_coerce ht⟩
  · have hsound : v.Sound st := hv.sound
    exact ⟨hsound.size_coerce .int, fun i x hx => hsound.coerce_int_element hx⟩

/-- The neighbours of the least integers, as doubles: one cuts to an integer, one to the integer
that stands for a missing element. -/
theorem run_conversions_lossless_least :
    let x := Register.named "x"
    let y := Register.named "y"
    let inside : Double := ⟨0xC1DFFFFFFFFFFFFF⟩
    let outside : Double := ⟨0xC1E0000000000000⟩
    let s := empty.run [.vector x .double [inside, outside],
      .vector y .int [-2147483647, Kind.missingInt, 2147483647]]
    let v : Vec .double := .dense ⟨0⟩
    let w : Vec .int := .dense ⟨0⟩
    let wider := w.coerce .double s.store
    let back := wider.1.coerce .int wider.2
    s.Live v ∧ s.Live w ∧ Kind.int.width ≤ Kind.double.width ∧
      back.1.Alike back.2 w s.store ∧
      back.1.elements back.2 = [-2147483647, Kind.missingInt, 2147483647] ∧
      v.element? s.store 0 = some inside ∧ inside.CutsTo (-2147483647) ∧
      v.element? s.store 1 = some outside ∧ outside.CutsTo Kind.missingInt := by
  intro x y inside outside s v w wider back
  have hv : s.Live v := live_of_value? (r := x) rfl
  have hw : s.Live w := live_of_value? (r := y) rfl
  have hwidth : Kind.int.width ≤ Kind.double.width := by decide
  obtain ⟨hchains, hcuts⟩ := run_conversions_lossless [.vector x .double [inside, outside],
    .vector y .int [-2147483647, Kind.missingInt, 2147483647]]
  obtain ⟨hback, -⟩ := hchains w hw .double hwidth
  obtain ⟨-, hcut⟩ := hcuts v hv
  let cut := v.coerce .int s.store
  have hfirst : v.element? s.store 0 = some inside := by decide +kernel
  have hsecond : v.element? s.store 1 = some outside := by decide +kernel
  have hfirst' : cut.1.element? cut.2 0 = some (-2147483647) := by decide +kernel
  have hsecond' : cut.1.element? cut.2 1 = some Kind.missingInt := by decide +kernel
  obtain ⟨m, hm, hinside⟩ := hcut 0 inside hfirst
  obtain ⟨n, hn, houtside⟩ := hcut 1 outside hsecond
  exact ⟨hv, hw, hwidth, hback, by decide +kernel,
    hfirst, (hinside _).mpr (Option.some.inj (hfirst'.symm.trans hm)),
    hsecond, (houtside _).mpr (Option.some.inj (hsecond'.symm.trans hn))⟩

end Session

end Deferred
