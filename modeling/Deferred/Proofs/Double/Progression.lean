import Mathlib.Order.Interval.Set.UnorderedInterval
import Deferred.Proofs.Double.Rounding
import Deferred.Proofs.Progression

/-!
# Progressions of doubles

The steps are counted with a tolerance, but the terms are made without it. So all terms but the last
lie between start and end, while the last one may pass the end: without rounding it does so just if
the way falls short of a whole number of steps by no more than the tolerance. With roundings it is
still only the last one that may, and how far depends on them too.
-/
set_option autoImplicit false

namespace Deferred

namespace Arithmetic

theorem length_eq_ok_iff {α : Type} (a : Arithmetic α) (start stop step : α) (n : Nat) :
    a.length start stop step = .ok n ↔
      (a.isFinite start = true ∧ a.isFinite stop = true ∧ a.isFinite step = true) ∧
        let span := a.sub stop start
        let steps := a.div span step
        (a.numEq step a.zero = true ∧ a.numEq span a.zero = true ∧ n = 1 ∨
          a.numEq step a.zero = false ∧ a.lt steps a.zero = false ∧
            a.lt a.mostSteps steps = false ∧
            n = (a.floor (a.add steps a.tolerance)).toNat + 1) := by
  unfold length
  cases a.isFinite start <;> cases a.isFinite stop <;> cases a.isFinite step <;>
    simp only [Bool.not_true, Bool.not_false, Bool.or_true, Bool.or_false, if_true,
      Bool.false_eq_true, if_false, reduceCtorEq, false_and, and_false, true_and]
  cases a.numEq step a.zero with
  | true => cases a.numEq (a.sub stop start) a.zero <;> simp [eq_comm (a := n)]
  | false =>
    cases a.lt (a.div (a.sub stop start) step) a.zero <;>
      cases a.lt a.mostSteps (a.div (a.sub stop start) step) <;> simp [eq_comm (a := n)]

/-- Arithmetic on rationals, without rounding. -/
def unrounded : Arithmetic ℚ where
  ofInt n := n
  isFinite _ := true
  lt p q := decide (p < q)
  numEq p q := decide (p = q)
  add p q := p + q
  sub p q := p - q
  mul p q := p * q
  div p q := p / q
  floor q := ⌊q⌋
  tolerance := Double.arithmetic.tolerance.value

theorem tolerance_bounds : 0 < unrounded.tolerance ∧ unrounded.tolerance < 1 / 2 ^ 33 := by
  have hunits : 0 < Double.arithmetic.tolerance.units ∧
      Double.arithmetic.tolerance.units * 2 ^ 33 < Double.unitsOfOne := by decide +kernel
  obtain ⟨hpos, hlt⟩ := hunits
  have hposq : (0 : ℚ) < Double.arithmetic.tolerance.units := by exact_mod_cast hpos
  have hltq : (Double.arithmetic.tolerance.units : ℚ) * 2 ^ 33 < Double.unitsOfOne := by
    exact_mod_cast hlt
  rw [unrounded, Double.value_eq_units_div]
  constructor
  · exact div_pos hposq Double.cast_unitsOfOne_pos
  · rw [div_lt_div_iff₀ Double.cast_unitsOfOne_pos (by positivity)]
    linarith

section Way

variable {f e p slack : ℚ}

/-- A way toward the end leads to a place between start and end just if it is no longer than the
whole way. -/
theorem add_mem_uIcc_iff (hsign : 0 ≤ p * (e - f)) : p + f ∈ Set.uIcc f e ↔ |p| ≤ |e - f| := by
  rw [Set.mem_uIcc]
  rcases mul_nonneg_iff.mp hsign with ⟨hp, hway⟩ | ⟨hp, hway⟩
  · rw [abs_of_nonneg hp, abs_of_nonneg hway]
    constructor
    · rintro (⟨hlow, hhigh⟩ | ⟨hlow, hhigh⟩) <;> linarith
    · intro h
      left
      constructor <;> linarith
  · rw [abs_of_nonpos hp, abs_of_nonpos hway]
    constructor
    · rintro (⟨hlow, hhigh⟩ | ⟨hlow, hhigh⟩) <;> linarith
    · intro h
      right
      constructor <;> linarith

theorem exists_near (hsign : 0 ≤ p * (e - f)) (hslack : 0 ≤ slack) (h : |p| ≤ |e - f| + slack) :
    ∃ r ∈ Set.uIcc f e, |p + f - r| ≤ slack := by
  by_cases hle : |p| ≤ |e - f|
  · refine ⟨p + f, (add_mem_uIcc_iff hsign).mpr hle, ?_⟩
    rwa [sub_self, abs_zero]
  · refine ⟨e, Set.right_mem_uIcc, ?_⟩
    rw [add_sub_assoc, ← sub_sub_self f e, sub_sub_cancel]
    rcases mul_nonneg_iff.mp hsign with ⟨hp, hway⟩ | ⟨hp, hway⟩
    · rw [abs_of_nonneg hp, abs_of_nonneg hway] at h hle
      rw [abs_le]
      constructor <;> linarith
    · rw [abs_of_nonpos hp, abs_of_nonpos hway] at h hle
      rw [abs_le]
      constructor <;> linarith

end Way

section Unrounded

variable {f e d : ℚ} {n : ℕ}

theorem unrounded_length_eq_ok_iff :
    unrounded.length f e d = .ok n ↔
      (d = 0 ∧ e = f ∧ n = 1) ∨ (d ≠ 0 ∧ 0 ≤ (e - f) / d ∧ (e - f) / d ≤ 2147483647 ∧
        n = ⌊(e - f) / d + unrounded.tolerance⌋.toNat + 1) := by
  have hzero : unrounded.zero = 0 := rfl
  have hmost : unrounded.mostSteps = 2147483647 := rfl
  rw [length_eq_ok_iff, hzero, hmost]
  simp only [unrounded, true_and, decide_eq_true_eq, decide_eq_false_iff_not, sub_eq_zero, not_lt]

theorem toward {c : ℚ} (hc : 0 ≤ c) (hway : e - f = c * d) (i : ℕ) : 0 ≤ i * d * (e - f) := by
  calc (0 : ℚ) ≤ i * c * (d * d) := mul_nonneg (mul_nonneg i.cast_nonneg hc) (mul_self_nonneg d)
    _ = i * d * (e - f) := by rw [hway]; ring

theorem unrounded_term_mem_iff {c : ℚ} (hc : 0 ≤ c) (hway : e - f = c * d) (hd : d ≠ 0) (i : ℕ) :
    unrounded.term f d i ∈ Set.uIcc f e ↔ (i : ℚ) ≤ c := by
  have hterm : unrounded.term f d i = i * d + f := rfl
  rw [hterm, add_mem_uIcc_iff (toward hc hway i), hway, abs_mul, abs_mul,
    mul_le_mul_iff_left₀ (abs_pos.mpr hd), Nat.abs_cast, abs_of_nonneg hc]

/-- All terms but the last lie between start and end. The last one does so unless the way falls
short of a whole number of steps by the tolerance or less, and never passes the end by more. -/
theorem unrounded_terms (h : unrounded.length f e d = .ok n) :
    (∀ i, i + 1 < n → unrounded.term f d i ∈ Set.uIcc f e) ∧
      ((∀ i < n, unrounded.term f d i ∈ Set.uIcc f e) ↔
        d = 0 ∨ Int.fract ((e - f) / d) + unrounded.tolerance < 1) ∧
      ∀ i < n, ∃ r ∈ Set.uIcc f e, |unrounded.term f d i - r| ≤ unrounded.tolerance * |d| := by
  obtain ⟨htol, hsmall⟩ := tolerance_bounds
  rcases unrounded_length_eq_ok_iff.mp h with ⟨rfl, rfl, rfl⟩ | ⟨hd, hsteps, -, hn⟩
  · have hterm (i : ℕ) : unrounded.term e 0 i = e := by simp [term, unrounded]
    simp [hterm]
  · have hway : e - f = (e - f) / d * d := (div_mul_cancel₀ _ hd).symm
    generalize (e - f) / d = c at hsteps hn hway
    have hmem := unrounded_term_mem_iff hsteps hway hd
    obtain ⟨m, hm⟩ : ∃ m : ℕ, ⌊c + unrounded.tolerance⌋ = m :=
      Int.eq_ofNat_of_zero_le (Int.floor_nonneg.mpr (by linarith))
    obtain ⟨hlow, hhigh⟩ := Int.floor_eq_iff.mp hm
    rw [hm, Int.toNat_natCast] at hn
    subst hn
    rw [Int.cast_natCast] at hlow hhigh
    refine ⟨fun i hi => ?_, ?_, fun i hi => ?_⟩
    · have hi : (i : ℚ) + 1 ≤ m := by exact_mod_cast Nat.le_of_lt_succ hi
      exact (hmem i).mpr (by linarith)
    · rw [or_iff_right hd, Int.fract]
      simp only [hmem]
      constructor
      · intro hall
        have hm : (m : ℤ) ≤ ⌊c⌋ := Int.le_floor.mpr (by exact_mod_cast hall m (Nat.lt_succ_self m))
        have hm : (m : ℚ) ≤ ⌊c⌋ := by exact_mod_cast hm
        linarith
      · intro hfract i hi
        have hlt : (m : ℤ) < ⌊c⌋ + 1 := by
          have hlt : (m : ℚ) < ⌊c⌋ + 1 := by linarith
          exact_mod_cast hlt
        have hle : (i : ℤ) ≤ ⌊c⌋ := by omega
        exact_mod_cast Int.le_floor.mp hle
    · have hi : (i : ℚ) ≤ m := by exact_mod_cast Nat.le_of_lt_succ hi
      have hlong : |i * d| ≤ |e - f| + unrounded.tolerance * |d| := by
        rw [hway, abs_mul, abs_mul, Nat.abs_cast, abs_of_nonneg hsteps, ← add_mul]
        exact mul_le_mul_of_nonneg_right (by linarith) (abs_nonneg d)
      exact exists_near (toward hsteps hway i) (by positivity) hlong

end Unrounded

end Arithmetic

namespace Double

section Steps

variable {way step span quotient tolerance : ℚ} {m : ℕ}

/-- What is known of the numbers computed from the exact way and step: the span, the quotient, and
the number of steps counted. -/
structure Counted (way step span quotient tolerance : ℚ) (m : ℕ) : Prop where
  step_ne : step ≠ 0
  tolerance_lt : tolerance < 1 / 2 ^ 33
  span_error : |span - way| ≤ |way| / 2 ^ 53
  quotient_error : |quotient - span / step| ≤ |span / step| / 2 ^ 53 ∨ |quotient| ≤ 1 / 2
  quotient_nonneg : 0 ≤ quotient
  quotient_le : quotient ≤ 2147483647
  count_pos : 0 < m
  count_le : m ≤ (1 + 1 / 2 ^ 53) * (quotient + tolerance)

/-- As soon as a step is counted, the quotient tells how long the way is. -/
theorem Counted.exists_factors (h : Counted way step span quotient tolerance m) :
    ∃ k l : ℚ, 1 - 1 / 2 ^ 53 ≤ k ∧ k ≤ 1 + 1 / 2 ^ 53 ∧ 1 - 1 / 2 ^ 53 ≤ l ∧ l ≤ 1 + 1 / 2 ^ 53 ∧
      span = k * way ∧ quotient * step = l * span := by
  have hm : (1 : ℚ) ≤ m := by exact_mod_cast h.count_pos
  have hstep := h.step_ne
  have htol := h.tolerance_lt
  have hcount := h.count_le
  have hnonneg := h.quotient_nonneg
  have herror : |quotient - span / step| ≤ |span / step| / 2 ^ 53 := by
    refine h.quotient_error.resolve_right fun hsmall => ?_
    rw [abs_of_nonneg hnonneg] at hsmall
    linarith
  obtain ⟨k, hk, hk', hspan⟩ := exists_factor h.span_error
  obtain ⟨l, hl, hl', hquotient⟩ := exists_factor herror
  refine ⟨k, l, hk, hk', hl, hl', hspan, ?_⟩
  rw [hquotient]
  field_simp

theorem Counted.toward (h : Counted way step span quotient tolerance m) : 0 ≤ step * way := by
  obtain ⟨k, l, hk, -, hl, -, hspan, hquotient⟩ := h.exists_factors
  have hkl : 0 < l * k := mul_pos (by linarith) (by linarith)
  have hproduct : l * k * (step * way) = quotient * (step * step) := by
    calc l * k * (step * way) = l * span * step := by rw [hspan]; ring
      _ = quotient * (step * step) := by rw [← hquotient]; ring
  have hnonneg : 0 ≤ l * k * (step * way) := by
    rw [hproduct]
    exact mul_nonneg h.quotient_nonneg (mul_self_nonneg step)
  exact nonneg_of_mul_nonneg_right hnonneg hkl

/-- The steps counted are longer than the way by the tolerance at most, and the roundings. All but
the last of them are not. -/
theorem Counted.lengths (h : Counted way step span quotient tolerance m) :
    m * |step| ≤ (1 + 1 / 2 ^ 53) * ((1 + 1 / 2 ^ 53) ^ 2 * |way| + tolerance * |step|) ∧
      ∀ i < m, (1 + 1 / 2 ^ 53) * (i * |step|) ≤ |way| ∧
        (1 + 1 / 2 ^ 53) * (i * |step|) ≤ |span| := by
  obtain ⟨k, l, hk, hk', hl, hl', hspan, hquotient⟩ := h.exists_factors
  have habs : quotient * |step| = l * |span| := by
    rw [← abs_of_nonneg h.quotient_nonneg, ← abs_mul, hquotient, abs_mul,
      abs_of_nonneg (by linarith)]
  have hspanle : |span| ≤ (1 + 1 / 2 ^ 53) * |way| := by
    rw [hspan, abs_mul, abs_of_nonneg (by linarith)]
    exact mul_le_mul_of_nonneg_right hk' (abs_nonneg way)
  have hquotientle : quotient * |step| ≤ (1 + 1 / 2 ^ 53) * |span| := by
    rw [habs]
    exact mul_le_mul_of_nonneg_right hl' (abs_nonneg span)
  have hmost : quotient * |step| ≤ 2147483647 * |step| :=
    mul_le_mul_of_nonneg_right h.quotient_le (abs_nonneg step)
  have htolle : tolerance * |step| ≤ 1 / 2 ^ 33 * |step| :=
    mul_le_mul_of_nonneg_right h.tolerance_lt.le (abs_nonneg step)
  have hcount : m * |step| ≤ (1 + 1 / 2 ^ 53) * (quotient * |step| + tolerance * |step|) := by
    rw [← add_mul, ← mul_assoc]
    exact mul_le_mul_of_nonneg_right h.count_le (abs_nonneg step)
  have hnonneg : 0 ≤ quotient * |step| := mul_nonneg h.quotient_nonneg (abs_nonneg step)
  refine ⟨by linarith, fun i hi => ?_⟩
  -- in fewer than `2 ^ 31` steps the roundings do not add up to one step, which is still missing
  have hsteps : i * |step| + |step| ≤ m * |step| := by
    rw [← add_one_mul]
    exact mul_le_mul_of_nonneg_right (by exact_mod_cast hi) (abs_nonneg step)
  constructor <;> linarith

theorem exists_near_of_length {f e p x slack : ℚ} (hsign : 0 ≤ p * (e - f)) (hslack : 0 ≤ slack)
    (hlength : |p| ≤ (1 + 1 / 2 ^ 53) ^ 2 * ((1 + 1 / 2 ^ 53) ^ 2 * |e - f| + slack))
    (herror : |x - (p + f)| ≤ |p + f| / 2 ^ 53) :
    ∃ r ∈ Set.uIcc f e, |x - r| ≤ slack + (|f| + |e| + slack) / 2 ^ 50 := by
  have hway : |e - f| ≤ |e| + |f| := abs_sub e f
  have hnonneg : 0 ≤ |e - f| := abs_nonneg (e - f)
  have hlong : |p| ≤ |e - f| + (slack + (|e - f| + slack) * 5 / 2 ^ 53) := by linarith
  obtain ⟨r, hr, hnear⟩ := Arithmetic.exists_near hsign (by positivity) hlong
  have hsum : |p + f| ≤ |p| + |f| := abs_add_le p f
  have hsplit : |x - r| ≤ |x - (p + f)| + |p + f - r| := abs_sub_le x (p + f) r
  have he : 0 ≤ |e| := abs_nonneg e
  have hf : 0 ≤ |f| := abs_nonneg f
  exact ⟨r, hr, by linarith⟩

theorem length_le {f e slack : ℚ} (hslack : 0 ≤ slack) :
    (1 + 1 / 2 ^ 53) ^ 2 * ((1 + 1 / 2 ^ 53) ^ 2 * |e - f| + slack) ≤
      2 * (|f| + |e| + slack) := by
  have hway : |e - f| ≤ |e| + |f| := abs_sub e f
  have he : 0 ≤ |e| := abs_nonneg e
  have hf : 0 ≤ |f| := abs_nonneg f
  linarith

end Steps

section Terms

open Arithmetic

variable {start stop step : Double} {m n i : ℕ}

/-- An accepted progression of doubles in which `m` steps are counted, at least one. -/
structure Accepted (start stop step : Double) (m : ℕ) : Prop where
  start_finite : start.isFinite = true
  stop_finite : stop.isFinite = true
  step_finite : step.isFinite = true
  span_finite : (stop.sub start).isFinite = true
  le : m ≤ 2147483647
  counted : Counted (stop.value - start.value) step.value (stop.sub start).value
    ((stop.sub start).div step).value unrounded.tolerance m

theorem magnitude_ne_zero_of_numEq (hstep : step.isFinite = true)
    (h : step.numEq (ofInt 0) = false) : step.magnitude ≠ 0 := by
  have hzero : (ofInt 0).isNaN = false ∧ (ofInt 0).key = 0 := by decide +kernel
  have hkey : step.key ≠ 0 := by
    simpa [numEq, hzero.1, hzero.2, isNaN_of_isFinite hstep] using h
  have habs := step.natAbs_key
  omega

theorem value_ne_zero_of_magnitude (h : step.magnitude ≠ 0) : step.value ≠ 0 := by
  have habs : (step.absUnits : ℚ) ≠ 0 := by exact_mod_cast mt (magnitude_eq_zero_iff step).mpr h
  rw [← abs_ne_zero, abs_value]
  exact div_ne_zero habs cast_unitsOfOne_pos.ne'

theorem term_eq (start step : Double) (i : ℕ) :
    arithmetic.term start step i = ((ofInt i).mul step).add start := by
  have hadd : arithmetic.add = add := rfl
  have hmul : arithmetic.mul = mul := rfl
  have hofInt : arithmetic.ofInt = ofInt := rfl
  rw [Arithmetic.term, hadd, hmul, hofInt]

theorem zero_eq : arithmetic.zero.isFinite = true ∧ arithmetic.zero.value = 0 := by
  have hzero : arithmetic.zero = ofInt (0 : Int32).toInt := rfl
  obtain ⟨hfinite, -, hvalue⟩ := ofInt_whole (natAbs_toInt_lt 0)
  rw [hzero]
  exact ⟨hfinite, hvalue.trans Int.cast_zero⟩

theorem mostSteps_eq :
    arithmetic.mostSteps.isFinite = true ∧ arithmetic.mostSteps.value = 2147483647 := by
  obtain ⟨hfinite, -, hvalue⟩ := ofInt_whole (natAbs_toInt_lt Int32.maxValue)
  exact ⟨hfinite, hvalue⟩

theorem tolerance_isFinite : arithmetic.tolerance.isFinite = true := by decide +kernel

theorem exists_count {quotient : Double} (hfinite : quotient.isFinite = true)
    (hnonneg : 0 ≤ quotient.value) (hle : quotient.value ≤ 2147483647) :
    ∃ m : ℕ, (quotient.add arithmetic.tolerance).floor = m ∧ m ≤ 2147483647 ∧
      (m : ℚ) ≤ (1 + 1 / 2 ^ 53) * (quotient.value + unrounded.tolerance) := by
  obtain ⟨htol, hsmall⟩ := tolerance_bounds
  have hvalue : arithmetic.tolerance.value = unrounded.tolerance := rfl
  have hsum : |quotient.value + unrounded.tolerance| = quotient.value + unrounded.tolerance :=
    abs_of_nonneg (by linarith)
  have hlimit : (2 : ℚ) ^ 32 ≤ limit := pow_le_pow_right₀ (by norm_num) (by norm_num)
  have hsumfinite : (quotient.add arithmetic.tolerance).isFinite = true := by
    refine isFinite_add hfinite tolerance_isFinite ?_
    rw [hvalue, hsum]
    linarith
  have herror := value_add_error hfinite tolerance_isFinite hsumfinite
  rw [hvalue, hsum, abs_le] at herror
  obtain ⟨hlow, hhigh⟩ := herror
  obtain ⟨m, hm⟩ := Int.eq_ofNat_of_zero_le (Int.floor_nonneg.mpr
    (show 0 ≤ (quotient.add arithmetic.tolerance).value by linarith))
  obtain ⟨hmle, -⟩ := Int.floor_eq_iff.mp hm
  rw [Int.cast_natCast] at hmle
  have hmlt : (m : ℚ) < 2147483648 := by linarith
  exact ⟨m, (floor_eq _).trans hm, Nat.le_of_lt_succ (by exact_mod_cast hmlt), by linarith⟩

theorem accepted_of_length (h : arithmetic.length start stop step = .ok n) (hn : n ≠ 1) :
    ∃ m, n = m + 1 ∧ Accepted start stop step m := by
  obtain ⟨⟨hstart, hstop, hstep⟩, hcases⟩ := (length_eq_ok_iff _ _ _ _ _).mp h
  obtain ⟨hne, hlow, hhigh, hcount⟩ := hcases.resolve_left fun hone => hn hone.2.2
  change n = (((stop.sub start).div step).add arithmetic.tolerance).floor.toNat + 1 at hcount
  obtain ⟨hzero, hzerovalue⟩ := zero_eq
  obtain ⟨hmost, hmostvalue⟩ := mostSteps_eq
  have hmagnitude : step.magnitude ≠ 0 := magnitude_ne_zero_of_numEq hstep hne
  -- the constants must not be computed when their definitions are compared
  generalize arithmetic.zero = zero at hzero hzerovalue hlow
  generalize arithmetic.mostSteps = most at hmost hmostvalue hhigh
  have hspan : (stop.sub start).isNaN = false := isNaN_sub hstop hstart
  obtain ⟨hquotient, hnonneg, hle⟩ := between_of_lt_eq_false
    (isNaN_div hspan hstep hmagnitude) hzero hmost hlow hhigh
  rw [hzerovalue] at hnonneg
  rw [hmostvalue] at hle
  have hspanfinite : (stop.sub start).isFinite = true := isFinite_of_div hspan hstep hquotient
  obtain ⟨m, hm, hmle, hcountle⟩ := exists_count hquotient hnonneg hle
  rw [hm, Int.toNat_natCast] at hcount
  exact ⟨m, hcount, {
    start_finite := hstart
    stop_finite := hstop
    step_finite := hstep
    span_finite := hspanfinite
    le := hmle
    counted := {
      step_ne := value_ne_zero_of_magnitude hmagnitude
      tolerance_lt := tolerance_bounds.2
      span_error := value_sub_error hstop hstart hspanfinite
      quotient_error := value_div_error hspanfinite hstep hmagnitude hquotient
      quotient_nonneg := hnonneg
      quotient_le := hle
      count_pos := by omega
      count_le := hcountle } }⟩

/-- The product in a term is finite unless it is too long. It leads toward the end, and is longer than
the exact one by a rounding at most. -/
theorem Accepted.product (h : Accepted start stop step m) (hi : i ≤ m) :
    ((ofInt i).mul step).isNaN = false ∧
      ((1 + 1 / 2 ^ 53) * (i * |step.value|) < limit → ((ofInt i).mul step).isFinite = true) ∧
      (((ofInt i).mul step).isFinite = true →
        0 ≤ ((ofInt i).mul step).value * (stop.value - start.value) ∧
          |((ofInt i).mul step).value| ≤ (1 + 1 / 2 ^ 53) * (i * |step.value|)) := by
  have hlt : (i : ℤ).natAbs < 2 ^ 53 := by
    rw [Int.natAbs_natCast]
    exact Nat.lt_of_le_of_lt (hi.trans h.le) (by norm_num)
  obtain ⟨hfinite, hwhole, hvalue⟩ := ofInt_whole hlt
  rw [Int.cast_natCast] at hvalue
  refine ⟨?_, fun hsmall => ?_, fun hproduct => ?_⟩
  · rw [mul_of_isFinite hfinite h.step_finite]
    exact isNaN_nearest _ _ _
  · refine isFinite_mul hfinite h.step_finite hwhole ?_
    rwa [hvalue, abs_mul, Nat.abs_cast]
  · have herror := value_mul_error hfinite h.step_finite hwhole hproduct
    rw [hvalue] at herror
    obtain ⟨k, hlow, hhigh, hk⟩ := exists_factor herror
    have hknonneg : 0 ≤ k := by linarith
    constructor
    · calc (0 : ℚ) ≤ k * i * (step.value * (stop.value - start.value)) :=
            mul_nonneg (mul_nonneg hknonneg i.cast_nonneg) h.counted.toward
        _ = ((ofInt i).mul step).value * (stop.value - start.value) := by rw [hk]; ring
    · rw [hk, abs_mul, abs_mul, Nat.abs_cast, abs_of_nonneg hknonneg]
      exact mul_le_mul_of_nonneg_right hhigh (mul_nonneg i.cast_nonneg (abs_nonneg _))

theorem Accepted.term_mem (h : Accepted start stop step m) (hi : i < m) :
    (arithmetic.term start step i).isFinite = true ∧
      (arithmetic.term start step i).value ∈ Set.uIcc start.value stop.value := by
  obtain ⟨hway, hspan⟩ := h.counted.lengths.2 i hi
  obtain ⟨-, hfinite, hproduct⟩ := h.product hi.le
  rw [term_eq]
  generalize (ofInt i).mul step = product at hfinite hproduct
  have hp := hfinite (hspan.trans_lt (abs_value_lt h.span_finite))
  obtain ⟨hsign, hlength⟩ := hproduct hp
  have hmem := (add_mem_uIcc_iff hsign).mpr (hlength.trans hway)
  rw [Set.mem_uIcc] at hmem ⊢
  rcases hmem with ⟨hlow, hhigh⟩ | ⟨hlow, hhigh⟩
  · obtain ⟨hterm, hbetween⟩ :=
      add_between hp h.start_finite h.start_finite h.stop_finite hlow hhigh
    exact ⟨hterm, Or.inl hbetween⟩
  · obtain ⟨hterm, hbetween⟩ :=
      add_between hp h.start_finite h.stop_finite h.start_finite hlow hhigh
    exact ⟨hterm, Or.inr hbetween⟩

theorem Accepted.steps_le (h : Accepted start stop step m) (hi : i ≤ m) :
    (1 + 1 / 2 ^ 53) * (i * |step.value|) ≤ (1 + 1 / 2 ^ 53) ^ 2 *
      ((1 + 1 / 2 ^ 53) ^ 2 * |stop.value - start.value| + unrounded.tolerance * |step.value|) := by
  have hsteps : i * |step.value| ≤ m * |step.value| :=
    mul_le_mul_of_nonneg_right (by exact_mod_cast hi) (abs_nonneg _)
  have hlong := h.counted.lengths.1
  linarith

theorem slack_nonneg (step : Double) : 0 ≤ unrounded.tolerance * |step.value| :=
  mul_nonneg tolerance_bounds.1.le (abs_nonneg _)

theorem Accepted.term_near (h : Accepted start stop step m) (hi : i ≤ m)
    (hterm : (arithmetic.term start step i).isFinite = true) :
    ∃ r ∈ Set.uIcc start.value stop.value,
      |(arithmetic.term start step i).value - r| ≤ unrounded.tolerance * |step.value| +
        (|start.value| + |stop.value| + unrounded.tolerance * |step.value|) / 2 ^ 50 := by
  obtain ⟨hnan, -, hproduct⟩ := h.product hi
  rw [term_eq] at hterm ⊢
  generalize (ofInt i).mul step = product at hnan hproduct hterm ⊢
  have hp : product.isFinite = true := isFinite_of_add hnan h.start_finite hterm
  obtain ⟨hsign, hlength⟩ := hproduct hp
  exact exists_near_of_length hsign (slack_nonneg step) (hlength.trans (h.steps_le hi))
    (value_add_error hp h.start_finite hterm)

theorem Accepted.term_isFinite (h : Accepted start stop step m) (hi : i ≤ m)
    (hsize : |start.value| + |stop.value| + unrounded.tolerance * |step.value| < 2 ^ 1022) :
    (arithmetic.term start step i).isFinite = true := by
  have hlimit : limit = 4 * 2 ^ 1022 := by
    rw [limit, show (1024 : ℕ) = 2 + 1022 from rfl, pow_add]
    norm_num
  obtain ⟨-, hfinite, hproduct⟩ := h.product hi
  have hsteps := (h.steps_le hi).trans (length_le (slack_nonneg step))
  have hslack := slack_nonneg step
  have hstart := abs_nonneg start.value
  have hstop := abs_nonneg stop.value
  rw [term_eq]
  generalize (ofInt i).mul step = product at hfinite hproduct ⊢
  generalize (2 : ℚ) ^ 1022 = bound at hsize hlimit
  have hp : product.isFinite = true := hfinite (by linarith)
  have hlength := (hproduct hp).2
  have hsum := abs_add_le product.value start.value
  exact isFinite_add hp h.start_finite (by linarith)

end Terms

end Double

namespace Session

open Arithmetic Double

/-- Doubles from `start` to `stop`. In exact arithmetic all terms but the last lie between the two,
and the last one does so unless the way falls short of a whole number of steps by the tolerance or
less; it never passes the end by more than the tolerance allows. With the roundings all elements but
the last still lie between start and end, and the last one passes the end by no more than tolerance
and roundings allow, unless it overflows, which takes numbers near the greatest. -/
theorem step_double_progression (s : Session) (target : Register) {start stop step : Double}
    {f e d : ℚ} (hf : start.value? = some f) (he : stop.value? = some e)
    (hd : step.value? = some d) :
    let t := s.step (.progression target .double (.double start step) stop)
    let slack := unrounded.tolerance * |d|
    (∀ n, unrounded.length f e d = .ok n →
      (∀ i, i + 1 < n → unrounded.term f d i ∈ Set.uIcc f e) ∧
      ((∀ i < n, unrounded.term f d i ∈ Set.uIcc f e) ↔
        d = 0 ∨ Int.fract ((e - f) / d) + unrounded.tolerance < 1) ∧
      ∀ i < n, ∃ r ∈ Set.uIcc f e, |unrounded.term f d i - r| ≤ slack) ∧
    (t.complaint = none → ∃ (v : Vec .double) (n : ℕ),
      arithmetic.length start stop step = .ok n ∧ 0 < n ∧
      t.session.value? target = some (.vector v) ∧ v.size t.session.store = n ∧
      ∀ i < n, ∃ x, v.read t.session.store i = .ok x ∧
        (i + 1 < n → ∃ q ∈ Set.uIcc f e, x.value? = some q) ∧
        (∀ q, x.value? = some q →
          ∃ r ∈ Set.uIcc f e, |q - r| ≤ slack + (|f| + |e| + slack) / 2 ^ 50) ∧
        (|f| + |e| + slack < 2 ^ 1022 → ∃ q, x.value? = some q)) := by
  intro t slack
  refine ⟨fun n => unrounded_terms, fun hdone => ?_⟩
  obtain ⟨-, rfl⟩ := value_of_value? hf
  obtain ⟨-, rfl⟩ := value_of_value? he
  obtain ⟨-, rfl⟩ := value_of_value? hd
  cases hlength : (Progression.double start step).length stop with
  | error fault =>
    have ht : t = .failed s (.progression fault) := step_progression_of_error s target hlength
    rw [ht] at hdone
    contradiction
  | ok n =>
    obtain ⟨-, v, hv, hsize, -, hread⟩ := step_progression_of_ok s target hlength
    by_cases hn : n = 1
    · refine ⟨v, n, hlength, by omega, hv, hsize, fun i hi =>
        ⟨start, by rw [hread i hi, if_pos hn]; rfl, by omega, fun q hq => ?_, fun _ => ⟨_, hf⟩⟩⟩
      obtain ⟨-, rfl⟩ := value_of_value? hq
      have hslack := slack_nonneg step
      refine ⟨start.value, Set.left_mem_uIcc, ?_⟩
      rw [sub_self, abs_zero]
      exact add_nonneg hslack (div_nonneg (by positivity) (by positivity))
    · obtain ⟨m, rfl, haccepted⟩ := accepted_of_length hlength hn
      refine ⟨v, m + 1, hlength, Nat.succ_pos m, hv, hsize, fun i hi =>
        ⟨arithmetic.term start step i, by rw [hread i hi, if_neg hn]; rfl, fun hi => ?_,
          fun q hq => ?_, fun hsmall => ?_⟩⟩
      · obtain ⟨hfinite, hmem⟩ := haccepted.term_mem (Nat.lt_of_succ_lt_succ hi)
        exact ⟨_, hmem, value?_eq_some hfinite⟩
      · obtain ⟨hfinite, rfl⟩ := value_of_value? hq
        exact haccepted.term_near (Nat.le_of_lt_succ hi) hfinite
      · exact ⟨_, value?_eq_some
          (haccepted.term_isFinite (Nat.le_of_lt_succ hi) hsmall)⟩

/-- From zero to a little less than one in steps of one, and from one down to zero in quarters: the
first passes the end, the second does not. -/
theorem step_double_progression_short_way :
    let r := Register.named "r"
    let short : Double := ⟨0x3FEFFFFFFFF80000⟩
    let quarter : Double := ⟨0xBFD0000000000000⟩
    let e : ℚ := 17179869183 / 2 ^ 34
    let t := empty.step (.progression r .double (.double .zero .one) short)
    let u := empty.step (.progression r .double (.double .one quarter) .zero)
    Double.zero.value? = some 0 ∧ Double.one.value? = some 1 ∧ short.value? = some e ∧
      quarter.value? = some (-1 / 2 ^ 2) ∧ t.complaint = none ∧ u.complaint = none ∧
      unrounded.length 0 e 1 = .ok 2 ∧ (¬ ∀ i < 2, unrounded.term 0 1 i ∈ Set.uIcc 0 e) ∧
      unrounded.length 1 0 (-1 / 2 ^ 2) = .ok 5 ∧
      (∀ i < 5, unrounded.term 1 (-1 / 2 ^ 2) i ∈ Set.uIcc 1 0) ∧
      (∃ v : Vec .double, t.session.value? r = some (.vector v) ∧ v.size t.session.store = 2) ∧
      ∃ v : Vec .double, u.session.value? r = some (.vector v) ∧ v.size u.session.store = 5 ∧
        ∀ i < 4, ∃ x, v.read u.session.store i = .ok x ∧ ∃ q ∈ Set.uIcc 1 0, x.value? = some q := by
  intro r short quarter e t u
  have hzero : Double.zero.value? = some 0 :=
    (value?_of_units (n := 0) (k := 0) (by decide) (by decide +kernel)).trans (by norm_num)
  have hone : Double.one.value? = some 1 :=
    (value?_of_units (n := 1) (k := 0) (by decide) (by decide +kernel)).trans (by norm_num)
  have hshort : short.value? = some e :=
    (value?_of_units (n := 17179869183) (k := 34) (by decide) (by decide +kernel)).trans
      (by norm_num [e])
  have hquarter : quarter.value? = some (-1 / 2 ^ 2) :=
    (value?_of_units (n := -1) (k := 2) (by decide) (by decide +kernel)).trans (by norm_num)
  have hlengtht : unrounded.length 0 e 1 = .ok 2 := by decide +kernel
  have hlengthu : unrounded.length 1 0 (-1 / 2 ^ 2) = .ok 5 := by decide +kernel
  have hpasses : ¬ ((1 : ℚ) = 0 ∨ Int.fract ((e - 0) / 1) + unrounded.tolerance < 1) := by
    decide +kernel
  have hholds : Int.fract ((0 - 1) / (-1 / 2 ^ 2) : ℚ) + unrounded.tolerance < 1 := by
    decide +kernel
  have hdonet : t.complaint = none := by decide +kernel
  have hdoneu : u.complaint = none := by decide +kernel
  obtain ⟨hunroundedt, hmadet⟩ := step_double_progression empty r hzero hshort hone
  obtain ⟨hunroundedu, hmadeu⟩ := step_double_progression empty r hone hzero hquarter
  obtain ⟨v, n, hn, -, hv, hsize, -⟩ := hmadet hdonet
  obtain ⟨w, m, hm, -, hw, hsize', helements⟩ := hmadeu hdoneu
  have hcountt : arithmetic.length .zero short .one = .ok 2 := by decide +kernel
  have hcountu : arithmetic.length .one .zero quarter = .ok 5 := by decide +kernel
  obtain rfl : 2 = n := Except.ok.inj (hcountt.symm.trans hn)
  obtain rfl : 5 = m := Except.ok.inj (hcountu.symm.trans hm)
  refine ⟨hzero, hone, hshort, hquarter, hdonet, hdoneu, hlengtht, ?_, hlengthu,
    (hunroundedu 5 hlengthu).2.1.mpr (Or.inr hholds), ⟨v, hv, hsize⟩, w, hw, hsize', fun i hi => ?_⟩
  · exact mt (hunroundedt 2 hlengtht).2.1.mp hpasses
  · obtain ⟨x, hx, hbetween, -⟩ := helements i (by omega)
    exact ⟨x, hx, hbetween (by omega)⟩

/-- The second of two elements lies past the end, which is less than one by `2 ^ -34`. -/
theorem step_double_progression_passes_end :
    let r := Register.named "r"
    let short : Double := ⟨0x3FEFFFFFFFF80000⟩
    let t := empty.step (.progression r .double (.double .zero .one) short)
    t.complaint = none ∧ short.lt .one = true ∧
      ∃ v : Vec .double, t.session.value? r = some (.vector v) ∧ v.size t.session.store = 2 ∧
        v.read t.session.store 0 = .ok .zero ∧ v.read t.session.store 1 = .ok .one := by
  intro r short t
  have hlength : (Progression.double .zero .one).length short = .ok 2 := by decide +kernel
  have hfirst : (Progression.double .zero .one).term 0 = .zero := by decide +kernel
  have hsecond : (Progression.double .zero .one).term 1 = .one := by decide +kernel
  obtain ⟨hdone, v, hv, hsize, -, hread⟩ := step_progression_of_ok empty r hlength
  refine ⟨hdone, by decide +kernel, v, hv, hsize, ?_, ?_⟩
  · rw [hread 0 (by decide), if_neg (by decide), hfirst]
  · rw [hread 1 (by decide), if_neg (by decide), hsecond]

end Session

end Deferred
