import Deferred.Proofs.Session.Updates

set_option autoImplicit false

namespace Deferred

namespace Progression

section Steps

variable {start stop step : Int} {i : Nat}

/-- How many whole steps lead from `start` to `stop`; there are none of length zero. -/
def wholeSteps (start stop step : Int) : Nat := (stop - start).natAbs / step.natAbs

/-- The step leads from the start to the end, or there is no way to go. -/
def Leads (start stop step : Int) : Prop :=
  (0 < step ∧ start ≤ stop) ∨ (step < 0 ∧ stop ≤ start) ∨ (step = 0 ∧ start = stop)

theorem leads_iff :
    Leads start stop step ↔
      ¬ ((step = 0 ∧ start ≠ stop) ∨ (start ≠ stop ∧ step.sign ≠ (stop - start).sign)) := by
  unfold Leads
  rcases Int.lt_trichotomy step 0 with hs | hs | hs
  · rw [Int.sign_eq_neg_one_of_neg hs, ne_eq, ne_eq, eq_comm (a := (-1 : Int)),
      Int.sign_eq_neg_one_iff_neg]
    omega
  · subst hs
    have hsign : (0 : Int).sign ≠ (stop - start).sign ↔ stop - start ≠ 0 := by
      rw [Int.sign_zero, ne_eq, eq_comm, Int.sign_eq_zero_iff_zero]
    rw [hsign]
    omega
  · rw [Int.sign_eq_one_of_pos hs, ne_eq, ne_eq, eq_comm (a := (1 : Int)),
      Int.sign_eq_one_iff_pos]
    omega

theorem toNat_tdiv (h : Leads start stop step) :
    ((stop - start).tdiv step).toNat = wholeSteps start stop step := by
  have hnonneg : 0 ≤ (stop - start).tdiv step := by
    rcases h with ⟨hs, hle⟩ | ⟨hs, hle⟩ | ⟨rfl, rfl⟩
    · exact Int.tdiv_nonneg (by omega) (by omega)
    · exact Int.tdiv_nonneg_of_nonpos_of_nonpos (by omega) (by omega)
    · simp
  have habs : ((stop - start).tdiv step).natAbs = wholeSteps start stop step :=
    Int.natAbs_tdiv (stop - start) step
  omega

theorem mul_natAbs_le (hi : i ≤ wholeSteps start stop step) :
    i * step.natAbs ≤ (stop - start).natAbs :=
  Nat.le_trans (Nat.mul_le_mul_right step.natAbs hi) (Nat.div_mul_le_self _ _)

theorem natAbs_lt_mul (hstep : step ≠ 0) :
    (stop - start).natAbs < (wholeSteps start stop step + 1) * step.natAbs := by
  have hpos : 0 < step.natAbs := Int.natAbs_pos.mpr hstep
  exact (Nat.div_lt_iff_lt_mul hpos).mp (Nat.lt_succ_self _)

theorem mul_eq_of_pos (hs : 0 < step) (i : Nat) : (i : Int) * step = (i * step.natAbs : Nat) := by
  rw [Int.natCast_mul, Int.natAbs_of_nonneg (by omega)]

theorem mul_eq_of_neg (hs : step < 0) (i : Nat) : (i : Int) * step = -(i * step.natAbs : Nat) := by
  rw [Int.natCast_mul, Int.ofNat_natAbs_of_nonpos (by omega), Int.mul_neg, Int.neg_neg]

theorem between (h : Leads start stop step) (hi : i ≤ wholeSteps start stop step) :
    min start stop ≤ start + i * step ∧ start + i * step ≤ max start stop := by
  have hway := mul_natAbs_le hi
  rcases h with ⟨hs, hle⟩ | ⟨hs, hle⟩ | ⟨rfl, rfl⟩
  · rw [mul_eq_of_pos hs]
    omega
  · rw [mul_eq_of_neg hs]
    omega
  · omega

theorem past_of_pos (h : Leads start stop step) (hs : 0 < step) :
    stop < start + (wholeSteps start stop step + 1 : Nat) * step := by
  have hway : (stop - start).natAbs < (wholeSteps start stop step + 1) * step.natAbs :=
    natAbs_lt_mul (by omega)
  rw [mul_eq_of_pos hs]
  rcases h with ⟨_, hle⟩ | ⟨hneg, _⟩ | ⟨hzero, _⟩ <;> omega

theorem past_of_neg (h : Leads start stop step) (hs : step < 0) :
    start + (wholeSteps start stop step + 1 : Nat) * step < stop := by
  have hway : (stop - start).natAbs < (wholeSteps start stop step + 1) * step.natAbs :=
    natAbs_lt_mul (by omega)
  rw [mul_eq_of_neg hs]
  rcases h with ⟨hpos, _⟩ | ⟨_, hle⟩ | ⟨hzero, _⟩ <;> omega

theorem wholeSteps_le (start stop step : Int) : wholeSteps start stop step ≤ (stop - start).natAbs :=
  Nat.div_le_self _ _

end Steps

section Words

variable {start stop step : Int32} {i : Nat}

/-- A bound is missing, or no step of this length leads from the start to the end. -/
def Malformed (start stop step : Int32) : Prop :=
  start = Kind.missingInt ∨ stop = Kind.missingInt ∨ step = Kind.missingInt ∨
    (step = 0 ∧ start ≠ stop) ∨
    (start ≠ stop ∧ step.toInt.sign ≠ (stop.toInt - start.toInt).sign)

theorem toInt_span (start stop : Int32) :
    (stop.toInt64 - start.toInt64).toInt = stop.toInt - start.toInt := by
  have hstart := start.le_toInt
  have hstart' := start.toInt_lt
  have hstop := stop.le_toInt
  have hstop' := stop.toInt_lt
  rw [Int64.toInt_sub, Int32.toInt_toInt64, Int32.toInt_toInt64]
  apply Int.bmod_eq_of_le <;> omega

theorem span_eq_zero_iff (start stop : Int32) :
    stop.toInt64 - start.toInt64 = 0 ↔ start.toInt = stop.toInt := by
  have hspan := toInt_span start stop
  rw [← Int64.toInt_inj, hspan, Int64.toInt_zero]
  omega

/-- Only the least word divided by minus one would wrap around. -/
theorem toInt_span_div (start stop step : Int32) :
    ((stop.toInt64 - start.toInt64) / step.toInt64).toInt =
      (stop.toInt - start.toInt).tdiv step.toInt := by
  have hspan := toInt_span start stop
  have hne : stop.toInt64 - start.toInt64 ≠ Int64.minValue := by
    intro h
    rw [h] at hspan
    have hmin : Int64.minValue.toInt = -9223372036854775808 := rfl
    have hstart' := start.toInt_lt
    have hstop := stop.le_toInt
    omega
  rw [Int64.toInt_div_of_ne_left _ _ hne, hspan, Int32.toInt_toInt64]

theorem toInt_eq_zero_iff : step.toInt = 0 ↔ step = 0 := by
  rw [← Int32.toInt_inj, Int32.toInt_zero]

theorem not_malformed_iff :
    ¬ Malformed start stop step ↔
      (start ≠ Kind.missingInt ∧ stop ≠ Kind.missingInt ∧ step ≠ Kind.missingInt) ∧
        Leads start.toInt stop.toInt step.toInt := by
  rw [leads_iff, ne_eq (a := start.toInt), Int32.toInt_inj, toInt_eq_zero_iff, Malformed]
  simp only [not_or, and_assoc, ne_eq]

theorem intLength_of_not_malformed (h : ¬ Malformed start stop step) :
    intLength start stop step = .ok (wholeSteps start.toInt stop.toInt step.toInt + 1) := by
  obtain ⟨⟨hstart, hstop, hstep⟩, hleads⟩ := not_malformed_iff.mp h
  have hsteps := toNat_tdiv hleads
  rw [leads_iff, not_or] at hleads
  obtain ⟨hzero, hsign⟩ := hleads
  unfold intLength
  rw [if_neg (by simp [hstart, hstop, hstep])]
  simp only [span_eq_zero_iff, toInt_span, toInt_span_div, hsteps]
  by_cases hs : step = 0
  · have heq : start.toInt = stop.toInt := by
      by_cases heq : start.toInt = stop.toInt
      · exact heq
      · exact absurd ⟨toInt_eq_zero_iff.mpr hs, heq⟩ hzero
    rw [if_pos hs, if_pos heq, heq, hs]
    simp [wholeSteps]
  · rw [if_neg hs, if_neg]
    rintro ⟨hspan, hdiff⟩
    have hne : start.toInt ≠ stop.toInt := fun heq => hspan ((span_eq_zero_iff start stop).mpr heq)
    exact hsign ⟨hne, hdiff.symm⟩

theorem intLength_of_malformed (h : Malformed start stop step) :
    ∃ e, intLength start stop step = .error e := by
  unfold intLength
  by_cases hmissing : start = Kind.missingInt ∨ stop = Kind.missingInt ∨ step = Kind.missingInt
  · exact ⟨_, if_pos hmissing⟩
  · rw [if_neg hmissing]
    simp only [span_eq_zero_iff, toInt_span]
    have hleads : ¬ Leads start.toInt stop.toInt step.toInt := by
      intro hleads
      simp only [not_or] at hmissing
      exact not_malformed_iff.mpr ⟨hmissing, hleads⟩ h
    rw [leads_iff, Decidable.not_not] at hleads
    by_cases hs : step = 0
    · have hne : start.toInt ≠ stop.toInt := by
        rcases hleads with ⟨_, hne⟩ | ⟨hne, _⟩ <;> exact hne
      exact ⟨_, by rw [if_pos hs, if_neg hne]⟩
    · rcases hleads with ⟨hzero, _⟩ | ⟨hne, hsign⟩
      · exact absurd (toInt_eq_zero_iff.mp hzero) hs
      · have hspan : stop.toInt64 - start.toInt64 ≠ 0 :=
          fun h => hne ((span_eq_zero_iff start stop).mp h)
        exact ⟨_, by rw [if_neg hs, if_pos ⟨hspan, hsign.symm⟩]⟩

/-- Nothing wraps around on the way to a term, and the cut to 32 bits keeps it. -/
structure Exact (start step : Int32) (i : Nat) : Prop where
  position_eq : (Int64.ofNat i).toInt = i
  product_eq : (Int64.ofNat i * step.toInt64).toInt = i * step.toInt
  sum_eq : (start.toInt64 + Int64.ofNat i * step.toInt64).toInt = start.toInt + i * step.toInt
  term_eq : ((int start step).term i).toInt = start.toInt + i * step.toInt

theorem exact_of_le (h : Leads start.toInt stop.toInt step.toInt)
    (hi : i ≤ wholeSteps start.toInt stop.toInt step.toInt) : Exact start step i := by
  have hstart := start.le_toInt
  have hstart' := start.toInt_lt
  have hstop := stop.le_toInt
  have hstop' := stop.toInt_lt
  obtain ⟨hlow, hhigh⟩ := between h hi
  have hcount := wholeSteps_le start.toInt stop.toInt step.toInt
  have hposition : (Int64.ofNat i).toInt = i := Int64.toInt_ofNat_of_lt (by omega)
  have hproduct : (Int64.ofNat i * step.toInt64).toInt = i * step.toInt := by
    rw [Int64.toInt_mul, hposition, Int32.toInt_toInt64]
    apply Int.bmod_eq_of_le <;> omega
  have hsum : (start.toInt64 + Int64.ofNat i * step.toInt64).toInt =
      start.toInt + i * step.toInt := by
    rw [Int64.toInt_add, hproduct, Int32.toInt_toInt64]
    apply Int.bmod_eq_of_le <;> omega
  refine ⟨hposition, hproduct, hsum, ?_⟩
  rw [term, Int64.toInt_toInt32, hsum]
  apply Int.bmod_eq_of_le <;> omega

theorem term_zero (start step : Int32) : (int start step).term 0 = start := by
  simp [term]

theorem term_ne_missing (hstart : start ≠ Kind.missingInt) (hstop : stop ≠ Kind.missingInt)
    {x : Int32} (h : min start.toInt stop.toInt ≤ x.toInt) : x ≠ Kind.missingInt := by
  have hmissing : Kind.missingInt.toInt = -2147483648 := rfl
  have hlow := start.le_toInt
  have hlow' := stop.le_toInt
  rw [ne_eq, ← Int32.toInt_inj] at hstart hstop ⊢
  omega

end Words

end Progression

section Elements

variable {k : Kind}

theorem Plain.getElem?_progression (p : Progression k) {n i : Nat} (hi : i < n) :
    (progression p n).elements[i]? = some (if n = 1 then p.start else p.term i) := by
  rw [progression, ofList]
  by_cases hn : n = 1
  · obtain rfl : i = 0 := by omega
    simp [hn]
  · rw [if_neg hn, if_neg hn, List.getElem?_map, List.getElem?_range hi]
    rfl

theorem Plain.length_progression (p : Progression k) (n : Nat) :
    (progression p n).elements.length = n := by
  rw [progression, ofList]
  by_cases hn : n = 1
  · simp [hn]
  · rw [if_neg hn, List.length_map, List.length_range]

end Elements

namespace Session

open Progression

variable {k : Kind}

/-- A progression with a length gives the target a vector of its terms; a single one is the start
itself. -/
theorem step_progression_of_ok (s : Session) (target : Register) {p : Progression k}
    {stop : k.Elem} {n : Nat} (h : p.length stop = .ok n) :
    let t := s.step (.progression target k p stop)
    t.complaint = none ∧ ∃ v : Vec k, t.session.value? target = some (.vector v) ∧
      v.size t.session.store = n ∧
      (∀ i, (∃ e, v.read t.session.store i = .error e) ↔ n ≤ i) ∧
      ∀ i < n, v.read t.session.store i = .ok (if n = 1 then p.start else p.term i) := by
  intro t
  obtain ⟨made, hmade, hmakes⟩ := Vec.progression_of_ok h s.store
  have ht : t = .done (s.putVector target made) := by
    change s.makeProgression target p stop = _
    rw [makeProgression, hmade]
  have hreads := hmakes.reads
  have hsize : made.1.size made.2 = n := hreads.size_eq.trans (Plain.length_progression p n)
  rw [ht]
  refine ⟨rfl, made.1, value?_putVector s target made, hsize, fun i => ?_, fun i hi => ?_⟩
  · have hfails := hreads.read_fails_iff i
    rwa [hsize] at hfails
  · exact (hreads.read_eq_ok_iff i _).mpr (Plain.getElem?_progression p hi)

theorem step_progression_of_error (s : Session) (target : Register) {p : Progression k}
    {stop : k.Elem} {e : ProgressionFault} (h : p.length stop = .error e) :
    s.step (.progression target k p stop) = .failed s (.progression e) := by
  change s.makeProgression target p stop = _
  rw [makeProgression, Vec.progression_of_error h]

/-- A sequence of integers is refused just if it is malformed, and nothing changes then. Otherwise
the target gets a vector of one element for the start and one for each whole step, each the exact
term between start and end and never missing; the next term would lie past the end. -/
theorem step_int_progression (s : Session) (target : Register) (start stop step : Int32) :
    let t := s.step (.progression target .int (.int start step) stop)
    let n := (stop.toInt - start.toInt).natAbs / step.toInt.natAbs + 1
    ((∃ e, t.complaint = some (.fault (.progression e))) ↔ Malformed start stop step) ∧
      (Malformed start stop step → t.session = s) ∧
      (¬ Malformed start stop step →
        t.complaint = none ∧ (step = 0 → n = 1) ∧
          (0 < step.toInt → stop.toInt < start.toInt + n * step.toInt) ∧
          (step.toInt < 0 → start.toInt + n * step.toInt < stop.toInt) ∧
          ∃ v : Vec .int, t.session.value? target = some (.vector v) ∧
            v.size t.session.store = n ∧
            (∀ i, (∃ e, v.read t.session.store i = .error e) ↔ n ≤ i) ∧
            ∀ i < n, Exact start step i ∧ ∃ x, v.read t.session.store i = .ok x ∧
              x.toInt = start.toInt + i * step.toInt ∧ x ≠ Kind.missingInt ∧
              min start.toInt stop.toInt ≤ x.toInt ∧ x.toInt ≤ max start.toInt stop.toInt) := by
  intro t n
  by_cases hm : Malformed start stop step
  · obtain ⟨e, he⟩ : ∃ e, (int start step).length stop = .error e := intLength_of_malformed hm
    have ht : t = .failed s (.progression e) := step_progression_of_error s target he
    rw [ht]
    exact ⟨iff_of_true ⟨e, rfl⟩ hm, fun _ => rfl, fun h => absurd hm h⟩
  · have hn : (int start step).length stop = .ok n := intLength_of_not_malformed hm
    obtain ⟨⟨hstart, hstop, _⟩, hleads⟩ := not_malformed_iff.mp hm
    obtain ⟨hdone, v, hv, hsize, hfails, hread⟩ := step_progression_of_ok s target hn
    refine ⟨iff_of_false ?_ hm, fun h => absurd h hm, fun _ => ⟨hdone, ?_, past_of_pos hleads,
      past_of_neg hleads, v, hv, hsize, hfails, fun i hi => ?_⟩⟩
    · rintro ⟨e, he⟩
      rw [hdone] at he
      contradiction
    · rintro rfl
      simp [n]
    · have hle : i ≤ wholeSteps start.toInt stop.toInt step.toInt := Nat.le_of_lt_succ hi
      have hexact := exact_of_le hleads hle
      obtain ⟨hlow, hhigh⟩ := between hleads hle
      rw [← hexact.term_eq] at hlow hhigh
      refine ⟨hexact, (int start step).term i, ?_, hexact.term_eq,
        term_ne_missing hstart hstop hlow, hlow, hhigh⟩
      rw [hread i hi]
      split
      · obtain rfl : i = 0 := by omega
        rw [term_zero]
        rfl
      · rfl

/-- The widest span in steps of one has more terms than there are positive 32-bit integers. Down from
one to ten there is no way. -/
theorem step_int_progression_widest :
    let r := Register.named "r"
    let t := empty.step (.progression r .int (.int (-2147483647) 1) 2147483647)
    let u := empty.step (.progression r .int (.int 1 (-1)) 10)
    ¬ Malformed (-2147483647) 2147483647 1 ∧ t.complaint = none ∧
      (∃ v : Vec .int, t.session.value? r = some (.vector v) ∧
        v.size t.session.store = 4294967295 ∧
        v.read t.session.store 4294967294 = .ok 2147483647) ∧
      Malformed 1 10 (-1) ∧ u.session = empty := by
  intro r t u
  have hm : ¬ Malformed (-2147483647) 2147483647 1 := by
    unfold Malformed
    decide
  have hm' : Malformed 1 10 (-1) := by
    unfold Malformed
    decide
  obtain ⟨-, -, hmade⟩ := step_int_progression empty r (-2147483647) 2147483647 1
  obtain ⟨-, hrefused, -⟩ := step_int_progression empty r 1 10 (-1)
  obtain ⟨hdone, -, -, -, v, hv, hsize, -, hterm⟩ := hmade hm
  obtain ⟨-, x, hx, hval, -⟩ := hterm 4294967294 (by decide)
  obtain rfl : x = 2147483647 := Int32.toInt_inj.mp (hval.trans (by decide))
  exact ⟨hm, hdone, ⟨v, hv, hsize, hx⟩, hm', hrefused hm'⟩

end Session

end Deferred
