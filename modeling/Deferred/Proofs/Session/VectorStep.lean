import Deferred.Proofs.Session.Mirror

set_option autoImplicit false

namespace Deferred

theorem Value.vector?_eq_some_iff {V : Kind → Type} {k : Kind} {v : Value V} {w : V k} :
    v.vector? k = some w ↔ v = .vector w := by
  cases v with
  | vector u =>
    rename_i j
    by_cases hj : j = k
    · subst hj
      simp [vector?]
    · simp [vector?, hj]
  | _ => simp [vector?]

/-- A scene becomes another by emptying registers and putting vectors into registers. -/
inductive Scene.Revectored (s : Scene) : Scene → Prop
  | refl : Revectored s s
  | drop {t : Scene} (h : Revectored s t) (r : Register) : Revectored s (t.drop r)
  | put {t : Scene} (h : Revectored s t) (r : Register) {k : Kind} (v : Vec k) :
      Revectored s (t.put r (.vector v))

namespace Scene.Revectored

variable {s t : Scene}

theorem objects_eq (h : s.Revectored t) : t.objects = s.objects := by
  induction h with
  | refl => rfl
  | drop _ r ih => exact ih
  | put _ r v ih => exact ih

end Scene.Revectored

def Command.isOnVectors : Command → Bool
  | .vector _ _ _ | .scalar _ _ _ | .replicate _ _ _ _ | .progression _ _ _ _ => true
  | .copy _ _ | .withAttributes _ _ _ | .materialize _ _ | .exclude _ _ _ | .gather _ _ _ => true
  | .coerce _ _ _ | .claim _ | .set _ _ _ _ _ _ => true
  | _ => false

namespace Session

variable {s : Session}

theorem revectored_onVector (r : Register) {f : (k : Kind) → Vec k → Step Session}
    (hf : ∀ k v, s.Revectored (f k v).session.toScene) :
    s.Revectored (s.onVector r f).session.toScene := by
  rw [onVector]
  split
  · exact hf _ _
  · exact .refl

theorem revectored_step (s : Session) {c : Command} (hc : c.isOnVectors = true) :
    s.Revectored (s.step c).session.toScene := by
  cases c with
  | vector target k xs => exact .put .refl target _
  | scalar target k x => exact .put .refl target _
  | replicate target k n x => exact .put .refl target _
  | progression target k p stop =>
    rw [step, makeProgression]
    split
    · exact .put .refl target _
    · exact .refl
  | copy target source => exact revectored_onVector source fun _ _ => .put .refl target _
  | withAttributes target source attributes =>
    exact revectored_onVector source fun _ _ => .put .refl target _
  | materialize target source => exact revectored_onVector source fun _ _ => .put .refl target _
  | exclude target source i =>
    refine revectored_onVector source fun k v => ?_
    cases v.exclude i s.store with
    | none => exact .refl
    | some w => exact .put .refl target w
  | gather target source index =>
    refine revectored_onVector source fun k v => ?_
    cases (s.value? index).bind (Value.vector? .int) with
    | none => exact .refl
    | some ix => exact .put .refl target (v.gather ix s.store)
  | coerce target source k => exact revectored_onVector source fun _ _ => .put .refl target _
  | claim r =>
    rw [step, claim]
    split <;> exact .refl
  | set target source keep k i x =>
    rw [step, set]
    split
    case h_2 => exact .refl
    case h_1 v hv =>
      have hrest : s.Revectored (if keep then s else s.drop source).toScene := by
        cases keep
        · exact .drop .refl source
        · exact .refl
      generalize (if keep then s else s.drop source) = rest at hrest
      dsimp only
      split
      · exact .put hrest target _
      · exact hrest
  | _ => exact absurd hc Bool.false_ne_true

end Session

namespace Session

/-- The session without the handle that a command takes out of its register. -/
def rest (s : Session) : Command → Session
  | .set _ source keep _ _ _ => if keep then s else s.drop source
  | _ => s

theorem not_mem_addresses_of_isSole {s : Session} {k : Kind} {v : Vec k}
    (h : s.isSole v = true) {j : Kind} {w : Vec j} (hw : .vector w ∈ s.holdings)
    {b : Σ k, Address k} (hb : b ∈ w.addresses) : b ∉ v.addresses := by
  cases v with
  | dense a =>
    have hfree := List.all_eq_true.mp h _ hw
    intro hab
    obtain rfl := List.mem_singleton.mp hab
    exact of_decide_eq_true hfree hb
  | _ => simp [isSole] at h

namespace Mirrors

variable {s : Session} {l : Ledger} (h : s.Mirrors l)

include h

theorem made (target : Register) {k : Kind} {made : Vec k × Store} {p : Plain k}
    (hm : Vec.Makes s.store made p) :
    (Step.done (s.putVector target made)).Mirrors s (Step.done (l.putVector target p)) :=
  ⟨h.putVector target hm, rfl, fun _ _ a _ => hm.keeps a.2⟩

theorem onVector (r : Register) {f : (k : Kind) → Vec k → Step Session}
    {g : (k : Kind) → Plain k → Step Ledger (Value Plain)}
    (hf : ∀ {k : Kind} (v : Vec k), .vector v ∈ s.holdings →
      (f k v).Mirrors s (g k (v.plain s.store))) :
    (s.onVector r f).Mirrors s (l.onVector r g) := by
  rw [Session.onVector, Ledger.onVector, h.value?_eq]
  cases hv : s.value? r with
  | none => exact h.unfit r
  | some v =>
    cases v with
    | vector v => exact hf v (Scene.mem_holdings_of_value? hv (by simp [Value.anchors]))
    | list items => cases items <;> exact h.unfit r
    | _ => exact h.unfit r

theorem bind_vector?_eq (r : Register) (k : Kind) :
    (l.value? r).bind (Value.vector? k) =
      ((s.value? r).bind (Value.vector? k)).map fun v => v.plain s.store := by
  rw [h.value?_eq]
  cases s.value? r with
  | none => rfl
  | some v =>
    cases v with
    | vector w =>
      rename_i j
      by_cases hj : j = k
      · subst hj
        simp [Value.plain, Value.mapVectors, Value.vector?]
      · simp [Value.plain, Value.mapVectors, Value.vector?, hj]
    | list items => cases items <;> rfl
    | _ => rfl

omit h in
theorem mem_holdings_of_bind_vector? {r : Register} {k : Kind} {v : Vec k}
    (hv : (s.value? r).bind (Value.vector? k) = some v) : .vector v ∈ s.holdings := by
  obtain ⟨w, hw, hvw⟩ := Option.bind_eq_some_iff.mp hv
  obtain rfl := Value.vector?_eq_some_iff.mp hvw
  exact Scene.mem_holdings_of_value? hw (by simp [Value.anchors])

theorem makeProgression (target : Register) {k : Kind} (p : Progression k) (stop : k.Elem) :
    (s.makeProgression target p stop).Mirrors s (l.makeProgression target p stop) := by
  rw [Session.makeProgression, Ledger.makeProgression]
  cases hlen : p.length stop with
  | error e =>
    simp only [Vec.progression_of_error hlen s.store]
    exact h.failed (.progression e)
  | ok n =>
    obtain ⟨made, hm, hmakes⟩ := Vec.progression_of_ok hlen s.store
    simp only [hm]
    exact h.made target hmakes

theorem materialize (target source : Register) :
    (s.materialize target source).Mirrors s
      (l.onVector source fun _ p => .done (l.putVector target p)) := by
  refine h.onVector source fun v hv => ?_
  have hm := Vec.makes_materialize (h.sound hv)
  exact ⟨h.putVector target hm, rfl, fun _ _ a _ => hm.keeps a.2⟩

theorem exclude (target source : Register) (i : Nat) :
    (s.exclude target source i).Mirrors s (l.exclude target source i) := by
  refine h.onVector source fun v hv => ?_
  have hsound := h.sound hv
  cases hw : v.exclude i s.store with
  | none =>
    have hle := (Vec.exclude_eq_none_iff v i s.store).mp hw
    rw [hsound.size_eq] at hle ⊢
    rw [if_neg (by omega)]
    exact h.failed (.indexOutOfBounds i _)
  | some w =>
    have hlt : ¬ v.size s.store ≤ i := by
      rw [← Vec.exclude_eq_none_iff, hw]
      simp
    rw [hsound.size_eq] at hlt
    rw [if_pos (by omega)]
    obtain ⟨hwsound, hwplain⟩ := Vec.exclude_eq_some hsound hw
    rw [← hwplain]
    exact done (h.put_vector target hwsound) rfl

theorem gather (target source index : Register) :
    (s.gather target source index).Mirrors s (l.gather target source index) := by
  refine h.onVector source fun v hv => ?_
  rw [h.bind_vector?_eq]
  cases hx : (s.value? index).bind (Value.vector? .int) with
  | none => exact h.unfit index
  | some ix =>
    have hix := h.sound (mem_holdings_of_bind_vector? hx)
    exact done (h.put_vector target (Vec.gather_sound (h.sound hv) hix)) rfl

theorem claim (r : Register) : (s.claim r).Mirrors s (l.claim r) := by
  rw [Session.claim, Ledger.claim, h.value?_eq]
  cases hv : s.value? r with
  | none => exact h.unfit r
  | some v =>
    cases v with
    | vector v =>
      have hkeeps : ∀ {j : Kind} (a : Address j), s.store.Keeps (v.claim s.store) a :=
        fun a => v.keeps_claim s.store a
      exact ⟨h.withStore fun _ _ a _ => hkeeps a.2, rfl, fun _ _ a _ => hkeeps a.2⟩
    | _ => exact done h rfl

theorem set (target source : Register) (keep : Bool) {k : Kind} (i : Nat) (x : k.Elem) :
    (s.set target source keep i x).Mirrors (if keep then s else s.drop source)
      (l.set target source keep i x) := by
  have hrest : (if keep then s else s.drop source).Mirrors (if keep then l else l.drop source) := by
    cases keep
    · exact h.drop source
    · exact h
  have hstore : (if keep then s else s.drop source).store = s.store := by cases keep <;> rfl
  rw [Session.set, Ledger.set, h.bind_vector?_eq]
  generalize (if keep then s else s.drop source) = rest at hrest hstore ⊢
  generalize (if keep then l else l.drop source) = rest' at hrest ⊢
  cases hv : (s.value? source).bind (Value.vector? k) with
  | none => exact ⟨h, rfl, fun _ _ a _ => hstore ▸ s.store.keeps_refl a.2⟩
  | some v =>
    have hsound := h.sound (mem_holdings_of_bind_vector? hv)
    simp only [Option.map_some]
    cases hm : v.set i x (rest.isSole v) s.store with
    | none =>
      have hle := (Vec.set_eq_none_iff v i x _ s.store).mp hm
      rw [hsound.size_eq] at hle ⊢
      rw [if_neg (by omega)]
      exact ⟨hrest, rfl, fun _ _ a _ => rest.store.keeps_refl a.2⟩
    | some made =>
      have hlt : ¬ v.size s.store ≤ i := by
        rw [← Vec.set_eq_none_iff v i x (rest.isSole v), hm]
        simp
      rw [hsound.size_eq] at hlt
      rw [if_pos (by omega)]
      obtain ⟨hmsound, hmplain, hkeeps⟩ := Vec.set_eq_some hsound hm
      -- No handle that is left leads to the cell that may have been written.
      have hothers : ∀ {j : Kind} (w : Vec j), .vector w ∈ rest.holdings →
          ∀ b ∈ w.addresses, rest.store.Keeps made.2 b.2 := by
        intro j w hw b hb
        rw [hstore]
        exact hkeeps b fun hsole => not_mem_addresses_of_isSole hsole hw hb
      have hput := (hrest.withStore hothers).put_vector target hmsound
      rw [show made.1.plain (rest.withStore made.2).store = _ from hmplain] at hput
      exact ⟨hput, rfl, hothers⟩

end Mirrors

end Session

end Deferred
