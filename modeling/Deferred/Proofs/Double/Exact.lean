import Mathlib.Tactic.Ring
import Mathlib.Order.Monotone.Basic
import Deferred.Element

set_option autoImplicit false

namespace Deferred

namespace Double

/-- The absolute value, in units, that a magnitude stands for. -/
def unitsOfMagnitude (m : Nat) : Nat :=
  if m >>> 52 = 0 then m % (1 <<< 52) else (1 <<< 52 + m % (1 <<< 52)) <<< (m >>> 52 - 1)

theorem absUnits_eq (x : Double) : x.absUnits = unitsOfMagnitude x.magnitude := rfl

/-- A significand `q` over steps of `2 ^ e` units. It has all its 53 bits in use, unless the steps
are single units. -/
structure OnGrid (e q : Nat) : Prop where
  lt : q < 2 ^ 53
  full : e = 0 ∨ 2 ^ 52 ≤ q

theorem exists_grid (m : Nat) : ∃ e q, OnGrid e q ∧ m = e * 2 ^ 52 + q := by
  by_cases hm : m < 2 ^ 52
  · exact ⟨0, m, ⟨by omega, Or.inl rfl⟩, by omega⟩
  · exact ⟨m / 2 ^ 52 - 1, 2 ^ 52 + m % 2 ^ 52, ⟨by omega, Or.inr (by omega)⟩, by omega⟩

theorem unitsOfMagnitude_grid {e q : Nat} (h : OnGrid e q) :
    unitsOfMagnitude (e * 2 ^ 52 + q) = q * 2 ^ e := by
  obtain ⟨hlt, hfull⟩ := h
  have hshift : 1 <<< 52 = 2 ^ 52 := rfl
  rw [unitsOfMagnitude, hshift]
  by_cases hq : q < 2 ^ 52
  · obtain rfl : e = 0 := by omega
    rw [if_pos (by omega), Nat.pow_zero]
    omega
  · have hexponent : (e * 2 ^ 52 + q) >>> 52 - 1 = e := by omega
    have hsignificand : 2 ^ 52 + (e * 2 ^ 52 + q) % 2 ^ 52 = q := by omega
    rw [if_neg (by omega), hexponent, hsignificand, Nat.shiftLeft_eq]

theorem unitsOfMagnitude_strictMono : StrictMono unitsOfMagnitude := by
  intro m m' hm
  obtain ⟨e, q, ⟨hlt, hfull⟩, rfl⟩ := exists_grid m
  obtain ⟨e', q', ⟨hlt', hfull'⟩, rfl⟩ := exists_grid m'
  rw [unitsOfMagnitude_grid ⟨hlt, hfull⟩, unitsOfMagnitude_grid ⟨hlt', hfull'⟩]
  rcases Nat.lt_trichotomy e e' with he | rfl | he
  · have hfull'' : 2 ^ 52 ≤ q' := by omega
    calc q * 2 ^ e < 2 ^ 53 * 2 ^ e := Nat.mul_lt_mul_of_pos_right hlt (Nat.two_pow_pos e)
      _ = 2 ^ 52 * 2 ^ (e + 1) := by ring
      _ ≤ 2 ^ 52 * 2 ^ e' := Nat.mul_le_mul_left _ (Nat.pow_le_pow_right (by decide) he)
      _ ≤ q' * 2 ^ e' := Nat.mul_le_mul_right _ hfull''
  · exact Nat.mul_lt_mul_of_pos_right (by omega) (Nat.two_pow_pos e)
  · omega

theorem unitsOfMagnitude_zero : unitsOfMagnitude 0 = 0 := rfl

theorem unitsOfMagnitude_infinite : unitsOfMagnitude infiniteMagnitude = 2 ^ 52 * 2 ^ 2046 := by
  have hgrid : OnGrid 2046 (2 ^ 52) := ⟨by decide, Or.inr (Nat.le_refl _)⟩
  have hinfinite : infiniteMagnitude = 2046 * 2 ^ 52 + 2 ^ 52 := by decide
  rw [hinfinite, unitsOfMagnitude_grid hgrid]

theorem isFinite_iff (x : Double) :
    x.isFinite = true ↔ x.absUnits < unitsOfMagnitude infiniteMagnitude := by
  rw [absUnits_eq, unitsOfMagnitude_strictMono.lt_iff_lt, isFinite, decide_eq_true_iff]

theorem magnitude_eq_zero_iff (x : Double) : x.magnitude = 0 ↔ x.absUnits = 0 := by
  constructor
  · intro h
    rw [absUnits_eq, h, unitsOfMagnitude_zero]
  · intro h
    rw [absUnits_eq, ← unitsOfMagnitude_zero] at h
    exact unitsOfMagnitude_strictMono.injective h

theorem word_ofMagnitude {m : Nat} (hm : m < 2 ^ 63) (negative : Bool) :
    (ofMagnitude negative m).word = m + if negative then 2 ^ 63 else 0 := by
  change (UInt64.ofNat _).toNat = _
  rw [UInt64.toNat_ofNat']
  cases negative <;> simp only [Bool.false_eq_true, if_false, if_true] <;> omega

theorem magnitude_ofMagnitude {m : Nat} (hm : m < 2 ^ 63) (negative : Bool) :
    (ofMagnitude negative m).magnitude = m := by
  have hshift : 1 <<< 63 = 2 ^ 63 := rfl
  rw [magnitude, word_ofMagnitude hm, hshift]
  cases negative <;> simp only [Bool.false_eq_true, if_false, if_true] <;> omega

theorem isNegative_ofMagnitude {m : Nat} (hm : m < 2 ^ 63) (negative : Bool) :
    (ofMagnitude negative m).isNegative = negative := by
  have hshift : 1 <<< 63 = 2 ^ 63 := rfl
  rw [isNegative, word_ofMagnitude hm, hshift]
  cases negative
  · exact decide_eq_false (by simp only [Bool.false_eq_true, if_false]; omega)
  · exact decide_eq_true (by simp only [if_true]; omega)

/-- A number of units with at most 53 significant bits. -/
def Fits (n : Nat) : Prop := ∃ c j, c < 2 ^ 53 ∧ n = c * 2 ^ j

theorem fits_absUnits (x : Double) : Fits x.absUnits := by
  obtain ⟨e, q, h, hm⟩ := exists_grid x.magnitude
  exact ⟨q, e, h.lt, by rw [absUnits_eq, hm, unitsOfMagnitude_grid h]⟩

theorem Fits.exists_grid {n : Nat} (h : Fits n) : ∃ e q, OnGrid e q ∧ n = q * 2 ^ e := by
  obtain ⟨c, j, hc, rfl⟩ := h
  induction j generalizing c with
  | zero => exact ⟨0, c, ⟨hc, Or.inl rfl⟩, rfl⟩
  | succ j ih =>
    by_cases hfull : 2 ^ 52 ≤ c
    · exact ⟨j + 1, c, ⟨hc, Or.inr hfull⟩, rfl⟩
    · obtain ⟨e, q, hgrid, heq⟩ := ih (2 * c) (by omega)
      exact ⟨e, q, hgrid, by rw [← heq]; ring⟩

theorem nearestEven_mul (q : Nat) {d : Nat} (hd : 0 < d) : nearestEven (q * d) d = q := by
  simp [nearestEven, Nat.mul_div_cancel q hd, hd]

theorem OnGrid.log2_sub {e q : Nat} (h : OnGrid e q) : (q * 2 ^ e).log2 - 52 = e := by
  obtain ⟨hlt, hfull⟩ := h
  by_cases hq : q < 2 ^ 52
  · obtain rfl : e = 0 := by omega
    by_cases hzero : q = 0
    · simp [hzero]
    · have hlog : q.log2 < 52 := (Nat.log2_lt hzero).mpr hq
      rw [Nat.pow_zero, Nat.mul_one]
      omega
  · have hne : q * 2 ^ e ≠ 0 := Nat.mul_ne_zero (by omega) (Nat.two_pow_pos e).ne'
    have hlog : (q * 2 ^ e).log2 = 52 + e := by
      rw [Nat.log2_eq_iff hne, Nat.pow_add, Nat.add_right_comm, Nat.pow_add]
      exact ⟨Nat.mul_le_mul_right _ (by omega),
        Nat.mul_lt_mul_of_pos_right hlt (Nat.two_pow_pos e)⟩
    omega

theorem nearest_grid {e q : Nat} (h : OnGrid e q) (negative : Bool)
    (hfinite : e * 2 ^ 52 + q < infiniteMagnitude) :
    nearest negative (q * 2 ^ e) 1 = ofMagnitude negative (e * 2 ^ 52 + q) := by
  have hsteps : nearestEven (q * 2 ^ e) (1 <<< e) = q := by
    rw [Nat.shiftLeft_eq, Nat.one_mul]
    exact nearestEven_mul q (Nat.two_pow_pos e)
  simp only [nearest, Nat.div_one, h.log2_sub, hsteps]
  rw [Nat.shiftLeft_eq, Nat.min_eq_left (by omega)]

/-- A number that fits comes out of rounding as it is. -/
theorem nearest_of_fits {n : Nat} (h : Fits n) (hn : n < unitsOfMagnitude infiniteMagnitude)
    (negative : Bool) :
    (nearest negative n 1).absUnits = n ∧ (nearest negative n 1).isNegative = negative ∧
      (nearest negative n 1).isFinite = true := by
  obtain ⟨e, q, hgrid, rfl⟩ := h.exists_grid
  have hfinite : e * 2 ^ 52 + q < infiniteMagnitude := by
    rw [← unitsOfMagnitude_grid hgrid] at hn
    exact unitsOfMagnitude_strictMono.lt_iff_lt.mp hn
  have hinfinite : infiniteMagnitude < 2 ^ 63 := by decide
  have hm : e * 2 ^ 52 + q < 2 ^ 63 := by omega
  have habs : (ofMagnitude negative (e * 2 ^ 52 + q)).absUnits = q * 2 ^ e := by
    rw [absUnits_eq, magnitude_ofMagnitude hm, unitsOfMagnitude_grid hgrid]
  rw [nearest_grid hgrid negative hfinite]
  refine ⟨habs, isNegative_ofMagnitude hm negative, ?_⟩
  rw [isFinite_iff, habs]
  exact hn

theorem unitsOfOne_eq : unitsOfOne = 2 ^ 1074 := by
  rw [unitsOfOne]
  -- the power is too large to be computed
  generalize 1074 = k
  exact Nat.one_shiftLeft k

theorem unitsOfOne_pos : 0 < unitsOfOne := Nat.shiftLeft_pos_iff.mpr Nat.one_pos

theorem fits_whole {n : Nat} (h : n < 2 ^ 53) : Fits (n * unitsOfOne) :=
  ⟨n, 1074, h, by rw [unitsOfOne_eq]⟩

theorem mul_two_pow_lt {n k j : Nat} (h : n < 2 ^ 53) (hkj : k < j) :
    n * 2 ^ k < 2 ^ 52 * 2 ^ j :=
  calc n * 2 ^ k < 2 ^ 53 * 2 ^ k := Nat.mul_lt_mul_of_pos_right h (Nat.two_pow_pos k)
    _ = 2 ^ 52 * 2 ^ (k + 1) := by ring
    _ ≤ 2 ^ 52 * 2 ^ j := Nat.mul_le_mul_left _ (Nat.pow_le_pow_right (by decide) hkj)

theorem whole_lt_infinite {n : Nat} (h : n < 2 ^ 53) :
    n * unitsOfOne < unitsOfMagnitude infiniteMagnitude := by
  rw [unitsOfMagnitude_infinite, unitsOfOne_eq]
  exact mul_two_pow_lt h (by decide)

theorem Fits.div_mul {n : Nat} (h : Fits n) (k : Nat) : Fits (n / 2 ^ k * 2 ^ k) := by
  obtain ⟨c, j, hc, rfl⟩ := h
  by_cases hj : k ≤ j
  · obtain ⟨i, rfl⟩ := Nat.exists_eq_add_of_le hj
    have hsplit : c * 2 ^ (k + i) = c * 2 ^ i * 2 ^ k := by ring
    exact ⟨c, k + i, hc, by rw [hsplit, Nat.mul_div_cancel _ (Nat.two_pow_pos k)]⟩
  · refine ⟨c * 2 ^ j / 2 ^ k, k, ?_, rfl⟩
    have hle : c * 2 ^ j ≤ c * 2 ^ k :=
      Nat.mul_le_mul_left c (Nat.pow_le_pow_right (by decide) (by omega))
    calc c * 2 ^ j / 2 ^ k ≤ c * 2 ^ k / 2 ^ k := Nat.div_le_div_right hle
      _ = c := Nat.mul_div_cancel c (Nat.two_pow_pos k)
      _ < 2 ^ 53 := hc

theorem units_of {x : Double} {negative : Bool} {n : Nat} (hn : x.absUnits = n)
    (hs : x.isNegative = negative) : x.units = if negative then -(n : Int) else n := by
  rw [units, hn, hs]

/-- A whole number of at most 53 bits is exact as a double. -/
theorem ofInt_exact {n : Int} (h : n.natAbs < 2 ^ 53) :
    (ofInt n).units = n * unitsOfOne ∧ (ofInt n).isFinite = true := by
  obtain ⟨habs, hneg, hfinite⟩ :=
    nearest_of_fits (fits_whole h) (whole_lt_infinite h) (decide (n < 0))
  refine ⟨?_, hfinite⟩
  rw [ofInt, ofRatio, units_of habs hneg]
  by_cases hn : n < 0
  · rw [if_pos (decide_eq_true hn), Int.natCast_mul, Int.ofNat_natAbs_of_nonpos (by omega),
      Int.neg_mul, Int.neg_neg]
  · rw [if_neg (by simpa using hn), Int.natCast_mul, Int.natAbs_of_nonneg (by omega)]

theorem roundTowardZero_exact {x : Double} (h : x.isFinite = true) :
    x.roundTowardZero.units = x.truncate * unitsOfOne ∧ x.roundTowardZero.isFinite = true := by
  have hfits : Fits (x.absUnits / unitsOfOne * unitsOfOne) := by
    rw [unitsOfOne_eq]
    exact (fits_absUnits x).div_mul 1074
  have hle : x.absUnits / unitsOfOne * unitsOfOne ≤ x.absUnits := Nat.div_mul_le_self _ _
  have hlt := (isFinite_iff x).mp h
  obtain ⟨habs, hneg, hfinite⟩ :=
    nearest_of_fits hfits (Nat.lt_of_le_of_lt hle hlt) x.isNegative
  rw [roundTowardZero, if_pos h, ofRatio]
  refine ⟨?_, hfinite⟩
  rw [units_of habs hneg, truncate, units]
  cases x.isNegative
  · simp only [Bool.false_eq_true, if_false]
    rw [Int.natCast_mul]
    rfl
  · simp only [if_true]
    rw [Int.neg_tdiv, Int.natCast_mul, Int.neg_mul]
    rfl

theorem key_lt_iff (x y : Double) : x.key < y.key ↔ x.units < y.units := by
  have hlt : x.magnitude < y.magnitude ↔ x.absUnits < y.absUnits :=
    unitsOfMagnitude_strictMono.lt_iff_lt.symm
  have hgt : y.magnitude < x.magnitude ↔ y.absUnits < x.absUnits :=
    unitsOfMagnitude_strictMono.lt_iff_lt.symm
  have hx := x.magnitude_eq_zero_iff
  have hy := y.magnitude_eq_zero_iff
  unfold key units
  split <;> split <;> omega

theorem isNaN_of_isFinite {x : Double} (h : x.isFinite = true) : x.isNaN = false := by
  have hlt : x.magnitude < infiniteMagnitude := of_decide_eq_true h
  exact decide_eq_false (Nat.not_lt.mpr (Nat.le_of_lt hlt))

theorem lt_iff {x y : Double} (hx : x.isFinite = true) (hy : y.isFinite = true) :
    x.lt y = true ↔ x.units < y.units := by
  rw [lt, isNaN_of_isFinite hx, isNaN_of_isFinite hy]
  simp [key_lt_iff]

theorem le_iff {x y : Double} (hx : x.isFinite = true) (hy : y.isFinite = true) :
    x.le y = true ↔ x.units ≤ y.units := by
  have hkey : x.key ≤ y.key ↔ x.units ≤ y.units := by
    rw [← Int.not_lt, key_lt_iff, Int.not_lt]
  rw [le, isNaN_of_isFinite hx, isNaN_of_isFinite hy]
  simp [hkey]

end Double

end Deferred
