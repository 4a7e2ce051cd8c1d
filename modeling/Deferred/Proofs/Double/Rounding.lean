import Mathlib.Data.Nat.Log
import Mathlib.Tactic.Linarith
import Mathlib.Tactic.Positivity
import Deferred.Proofs.Conversions

/-!
# Rounded binary64 arithmetic

Rounding to the nearest number keeps the order, so that sums and products do. Where it does not
overflow, it is off by no more than one part in `2 ^ 53`; only a quotient can be so small that it is
off by half a unit instead.
-/
set_option autoImplicit false

namespace Deferred

namespace Double

section Nearest

variable {num num' den : Nat}

theorem div_le_nearestEven (num den : Nat) : num / den ≤ nearestEven num den := by
  simp only [nearestEven]
  split <;> omega

theorem nearestEven_le_div_add_one (num den : Nat) : nearestEven num den ≤ num / den + 1 := by
  simp only [nearestEven]
  split <;> omega

theorem nearestEven_error (num : Nat) (hden : 0 < den) :
    2 * (nearestEven num den * den) ≤ 2 * num + den ∧
      2 * num ≤ 2 * (nearestEven num den * den) + den := by
  have hsplit : num / den * den + num % den = num := Nat.div_add_mod' num den
  have hlt : num % den < den := Nat.mod_lt num hden
  simp only [nearestEven]
  split
  · omega
  · rw [Nat.add_mul, Nat.one_mul]
    omega

theorem nearestEven_mono (h : num ≤ num') : nearestEven num den ≤ nearestEven num' den := by
  rcases Nat.lt_or_eq_of_le (Nat.div_le_div_right (c := den) h) with hlt | heq
  · calc nearestEven num den ≤ num / den + 1 := nearestEven_le_div_add_one num den
      _ ≤ num' / den := hlt
      _ ≤ nearestEven num' den := div_le_nearestEven num' den
  · have hrest : num % den ≤ num' % den := by
      have hsplit := Nat.div_add_mod num den
      have hsplit' := Nat.div_add_mod num' den
      rw [heq] at hsplit
      omega
    simp only [nearestEven, heq]
    split <;> split <;> omega

/-- The binary logarithm of the steps between the numbers near `num / den` units. -/
def gridOf (num den : Nat) : Nat := (num / den).log2 - 52

/-- The magnitude of the number nearest to `num / den` units, as if there were no greatest one. -/
def nearestMagnitude (num den : Nat) : Nat :=
  gridOf num den * 2 ^ 52 + nearestEven num (den * 2 ^ gridOf num den)

theorem nearest_eq (negative : Bool) (num den : Nat) :
    nearest negative num den =
      ofMagnitude negative (min (nearestMagnitude num den) infiniteMagnitude) := by
  simp only [nearest, nearestMagnitude, gridOf, Nat.shiftLeft_eq]

/-- The significand has 53 bits, or one more bit after a carry. -/
theorem significand_bounds (num den : Nat) :
    nearestEven num (den * 2 ^ gridOf num den) ≤ 2 ^ 53 ∧
      (gridOf num den = 0 ∨ 2 ^ 52 ≤ nearestEven num (den * 2 ^ gridOf num den)) := by
  have hdiv : num / (den * 2 ^ gridOf num den) = num / den / 2 ^ gridOf num den :=
    (Nat.div_div_eq_div_mul _ _ _).symm
  have hlow := div_le_nearestEven num (den * 2 ^ gridOf num den)
  have hhigh := nearestEven_le_div_add_one num (den * 2 ^ gridOf num den)
  rw [hdiv] at hlow hhigh
  constructor
  · have hlt : num / den < 2 ^ 53 * 2 ^ gridOf num den := by
      calc num / den < 2 ^ ((num / den).log2 + 1) := Nat.lt_log2_self
        _ ≤ 2 ^ (53 + gridOf num den) := Nat.pow_le_pow_right (by decide) (by unfold gridOf; omega)
        _ = 2 ^ 53 * 2 ^ gridOf num den := Nat.pow_add _ _ _
    have hfloor : num / den / 2 ^ gridOf num den < 2 ^ 53 :=
      (Nat.div_lt_iff_lt_mul (Nat.two_pow_pos _)).mpr hlt
    omega
  · rcases Nat.eq_zero_or_pos (gridOf num den) with hzero | hpos
    · exact Or.inl hzero
    · right
      have hne : num / den ≠ 0 := by
        intro h
        rw [gridOf, h] at hpos
        simp at hpos
      have hle : 2 ^ 52 * 2 ^ gridOf num den ≤ num / den := by
        calc 2 ^ 52 * 2 ^ gridOf num den = 2 ^ (num / den).log2 := by
              rw [← Nat.pow_add]
              congr 1
              unfold gridOf at hpos ⊢
              omega
          _ ≤ num / den := Nat.log2_self_le hne
      exact Nat.le_trans ((Nat.le_div_iff_mul_le (Nat.two_pow_pos _)).mpr hle) hlow

theorem nearestMagnitude_mono (h : num ≤ num') :
    nearestMagnitude num den ≤ nearestMagnitude num' den := by
  obtain ⟨hhigh, -⟩ := significand_bounds num den
  obtain ⟨-, hlow⟩ := significand_bounds num' den
  have hgrid : gridOf num den ≤ gridOf num' den := by
    rw [gridOf, gridOf, Nat.log2_eq_log_two, Nat.log2_eq_log_two]
    exact Nat.sub_le_sub_right (Nat.log_mono_right (Nat.div_le_div_right h)) 52
  unfold nearestMagnitude
  rcases Nat.lt_or_eq_of_le hgrid with hlt | heq
  · omega
  · rw [heq]
    exact Nat.add_le_add_left (nearestEven_mono h) _

theorem unitsOfMagnitude_nearestMagnitude (num den : Nat) :
    unitsOfMagnitude (nearestMagnitude num den) =
      nearestEven num (den * 2 ^ gridOf num den) * 2 ^ gridOf num den := by
  obtain ⟨hhigh, hlow⟩ := significand_bounds num den
  unfold nearestMagnitude
  generalize nearestEven num (den * 2 ^ gridOf num den) = q at hhigh hlow ⊢
  generalize gridOf num den = e at hlow ⊢
  rcases Nat.lt_or_eq_of_le hhigh with hlt | rfl
  · exact unitsOfMagnitude_grid ⟨hlt, hlow⟩
  · have hcarry : OnGrid (e + 1) (2 ^ 52) := ⟨by decide, Or.inr (Nat.le_refl _)⟩
    have hmagnitude : e * 2 ^ 52 + 2 ^ 53 = (e + 1) * 2 ^ 52 + 2 ^ 52 := by omega
    rw [hmagnitude, unitsOfMagnitude_grid hcarry]
    ring

/-- A step of the grid is one part in `2 ^ 52` at most, unless nothing has to be rounded. -/
theorem grid_le_or_exact (hden : 0 < den) (h : den ∣ num ∨ 2 ^ 53 * den ≤ num) :
    den * 2 ^ gridOf num den * 2 ^ 52 ≤ num ∨
      nearestEven num (den * 2 ^ gridOf num den) * (den * 2 ^ gridOf num den) = num := by
  rcases Nat.eq_zero_or_pos (gridOf num den) with hzero | hpos
  · rw [hzero, Nat.pow_zero, Nat.mul_one]
    rcases h with ⟨k, rfl⟩ | hle
    · right
      rw [Nat.mul_comm den k, nearestEven_mul k hden]
    · left
      omega
  · left
    have hlog : (num / den).log2 = gridOf num den + 52 := by
      unfold gridOf at hpos ⊢
      omega
    have hne : num / den ≠ 0 := by
      intro h
      rw [h] at hlog
      simp at hlog
    calc den * 2 ^ gridOf num den * 2 ^ 52 = 2 ^ (num / den).log2 * den := by rw [hlog]; ring
      _ ≤ num / den * den := Nat.mul_le_mul_right den (Nat.log2_self_le hne)
      _ ≤ num := Nat.div_mul_le_self num den

/-- Off by one part in `2 ^ 53` at most, unless there are fewer bits than that. -/
theorem unitsOfMagnitude_error (hden : 0 < den) (h : den ∣ num ∨ 2 ^ 53 * den ≤ num) :
    |(unitsOfMagnitude (nearestMagnitude num den) : ℚ) - num / den| ≤ num / den / 2 ^ 53 := by
  have hdenq : (0 : ℚ) < den := by exact_mod_cast hden
  have hgrid := grid_le_or_exact hden h
  have hstep : 0 < den * 2 ^ gridOf num den := Nat.mul_pos hden (Nat.two_pow_pos _)
  obtain ⟨hlow, hhigh⟩ := nearestEven_error num hstep
  have hunits : unitsOfMagnitude (nearestMagnitude num den) * den =
      nearestEven num (den * 2 ^ gridOf num den) * (den * 2 ^ gridOf num den) := by
    rw [unitsOfMagnitude_nearestMagnitude]
    ring
  rw [← hunits] at hlow hhigh hgrid
  generalize unitsOfMagnitude (nearestMagnitude num den) = n at hlow hhigh hgrid ⊢
  generalize den * 2 ^ gridOf num den = d at hlow hhigh hgrid hstep
  have hlowq : (2 : ℚ) * (n * den) ≤ 2 * num + d := by exact_mod_cast hlow
  have hhighq : (2 : ℚ) * num ≤ 2 * (n * den) + d := by exact_mod_cast hhigh
  have herror : |(n * den : ℚ) - num| ≤ num / 2 ^ 53 := by
    rcases hgrid with hstep | hexact
    · have hstepq : (d : ℚ) * 2 ^ 52 ≤ num := by exact_mod_cast hstep
      rw [abs_le]
      constructor <;> linarith
    · have hexactq : (n * den : ℚ) = num := by exact_mod_cast hexact
      rw [hexactq, sub_self, abs_zero]
      positivity
  calc |(n : ℚ) - num / den| = |(n * den : ℚ) - num| / den := by
        rw [← abs_of_pos hdenq, ← abs_div, abs_of_pos hdenq]
        congr 1
        field_simp
    _ ≤ num / 2 ^ 53 / den := div_le_div_of_nonneg_right herror hdenq.le
    _ = num / den / 2 ^ 53 := by ring

theorem unitsOfMagnitude_le (h : num < 2 ^ 53 * den) :
    unitsOfMagnitude (nearestMagnitude num den) ≤ 2 ^ 53 := by
  have hgrid : gridOf num den = 0 := by
    have hlt : num / den < 2 ^ 53 := Nat.div_lt_of_lt_mul (by rwa [Nat.mul_comm])
    have hlog : (num / den).log2 < 53 := by
      rcases Nat.eq_zero_or_pos (num / den) with hzero | hpos
      · rw [hzero]
        decide
      · exact (Nat.log2_lt hpos.ne').mpr hlt
    unfold gridOf
    omega
  obtain ⟨hhigh, -⟩ := significand_bounds num den
  rw [hgrid, Nat.pow_zero, Nat.mul_one] at hhigh
  rw [unitsOfMagnitude_nearestMagnitude, hgrid, Nat.pow_zero, Nat.mul_one, Nat.mul_one]
  exact hhigh

end Nearest

section Numbers

variable {num den : Nat}

theorem magnitude_nearest (negative : Bool) (num den : Nat) :
    (nearest negative num den).magnitude = min (nearestMagnitude num den) infiniteMagnitude := by
  have hinfinite : infiniteMagnitude < 2 ^ 63 := by decide
  rw [nearest_eq, magnitude_ofMagnitude (by omega)]

theorem isNegative_nearest (negative : Bool) (num den : Nat) :
    (nearest negative num den).isNegative = negative := by
  have hinfinite : infiniteMagnitude < 2 ^ 63 := by decide
  rw [nearest_eq, isNegative_ofMagnitude (by omega)]

theorem absUnits_nearest {negative : Bool} (h : (nearest negative num den).isFinite = true) :
    (nearest negative num den).absUnits = unitsOfMagnitude (nearestMagnitude num den) := by
  have hlt : (nearest negative num den).magnitude < infiniteMagnitude := of_decide_eq_true h
  have hmagnitude := magnitude_nearest negative num den
  rw [absUnits_eq, hmagnitude, Nat.min_eq_left (by omega)]

end Numbers

def signed (negative : Bool) (q : ℚ) : ℚ := if negative then -q else q

theorem signed_sub (negative : Bool) (p q : ℚ) :
    |signed negative p - signed negative q| = |p - q| := by
  cases negative with
  | false => rfl
  | true => rw [signed, signed, if_pos rfl, if_pos rfl, neg_sub_neg, abs_sub_comm]

theorem signed_mul (b c : Bool) (p q : ℚ) :
    signed b p * signed c q = signed (b ^^ c) (p * q) := by
  cases b <;> cases c <;> simp [signed]

theorem signed_div (b c : Bool) (p q : ℚ) :
    signed b p / signed c q = signed (b ^^ c) (p / q) := by
  cases b <;> cases c <;> simp [signed, neg_div, div_neg]

def value (x : Double) : ℚ := signed x.isNegative (x.absUnits / unitsOfOne)

theorem value_eq_units_div (x : Double) : x.value = x.units / unitsOfOne := by
  unfold value signed units
  split <;> simp [neg_div]

theorem value_add_value (x y : Double) :
    x.value + y.value = (x.units + y.units : ℤ) / unitsOfOne := by
  rw [value_eq_units_div, value_eq_units_div, ← add_div, Int.cast_add]

theorem div_unitsOfOne_le_iff {m n : ℤ} : (m / unitsOfOne : ℚ) ≤ n / unitsOfOne ↔ m ≤ n := by
  rw [div_le_div_iff_of_pos_right cast_unitsOfOne_pos, Int.cast_le]

theorem value_of_value? {x : Double} {q : ℚ} (h : x.value? = some q) :
    x.isFinite = true ∧ x.value = q := by
  by_cases hfinite : x.isFinite = true
  · rw [value?_of_isFinite hfinite, ← value_eq_units_div] at h
    exact ⟨hfinite, Option.some.inj h⟩
  · rw [value?, if_neg hfinite] at h
    contradiction

theorem value?_eq_some {x : Double} (h : x.isFinite = true) : x.value? = some x.value := by
  rw [value?_of_isFinite h, ← value_eq_units_div]

theorem value?_of_units {x : Double} {n : ℤ} {k : ℕ} (hfinite : x.isFinite = true)
    (h : x.units * 2 ^ k = n * unitsOfOne) : x.value? = some ((n : ℚ) / 2 ^ k) := by
  have hq : (x.units : ℚ) * 2 ^ k = n * unitsOfOne := by exact_mod_cast h
  rw [value?_of_isFinite hfinite, (div_eq_div_iff cast_unitsOfOne_pos.ne' (by positivity)).mpr hq]

theorem abs_value (x : Double) : |x.value| = x.absUnits / unitsOfOne := by
  have hnonneg : (0 : ℚ) ≤ x.absUnits / unitsOfOne := by positivity
  unfold value signed
  split
  · rw [abs_neg, abs_of_nonneg hnonneg]
  · exact abs_of_nonneg hnonneg

/-- A number that is off by one part in `2 ^ 53` at most comes from a factor near one. -/
theorem exists_factor {x y : ℚ} (h : |x - y| ≤ |y| / 2 ^ 53) :
    ∃ k : ℚ, 1 - 1 / 2 ^ 53 ≤ k ∧ k ≤ 1 + 1 / 2 ^ 53 ∧ x = k * y := by
  rcases eq_or_ne y 0 with rfl | hy
  · have hx : x = 0 := by simpa using h
    exact ⟨1, by norm_num, by norm_num, by rw [hx, mul_zero]⟩
  · have hbound : |x / y - 1| ≤ 1 / 2 ^ 53 := by
      rw [div_sub_one hy, abs_div, div_le_iff₀ (abs_pos.mpr hy)]
      linarith
    obtain ⟨hlow, hhigh⟩ := abs_le.mp hbound
    exact ⟨x / y, by linarith, by linarith, (div_mul_cancel₀ x hy).symm⟩

theorem value_nearest_error {negative : Bool} {num den : Nat} (hden : 0 < den)
    (h : den ∣ num ∨ 2 ^ 53 * den ≤ num) (hfinite : (nearest negative num den).isFinite = true) :
    |(nearest negative num den).value - signed negative (num / den / unitsOfOne)| ≤
      num / den / unitsOfOne / 2 ^ 53 := by
  have herror := unitsOfMagnitude_error hden h
  rw [value, isNegative_nearest, absUnits_nearest hfinite, signed_sub, ← sub_div, abs_div,
    abs_of_pos cast_unitsOfOne_pos, div_right_comm]
  exact div_le_div_of_nonneg_right herror cast_unitsOfOne_pos.le

section Operations

variable {x y : Double}

theorem signedZero_spec (negative : Bool) :
    (signedZero negative).isFinite = true ∧ (signedZero negative).units = 0 ∧
      (signedZero negative).key = 0 := by
  cases negative <;> decide

theorem isInfinite_of_isFinite (h : x.isFinite = true) : x.isInfinite = false := by
  have hlt : x.magnitude < infiniteMagnitude := of_decide_eq_true h
  exact decide_eq_false (Nat.ne_of_lt hlt)

theorem unlessNaN_of_isFinite (hx : x.isFinite = true) (hy : y.isFinite = true) (z : Double) :
    unlessNaN x y z = z := by
  rw [unlessNaN, isNaN_of_isFinite hx, isNaN_of_isFinite hy]
  rfl

theorem add_of_isFinite (hx : x.isFinite = true) (hy : y.isFinite = true) :
    x.add y =
      if x.units + y.units = 0 then signedZero (x.isNegative && y.isNegative)
      else nearest (decide (x.units + y.units < 0)) (x.units + y.units).natAbs 1 := by
  rw [add, unlessNaN_of_isFinite hx hy, isInfinite_of_isFinite hx, isInfinite_of_isFinite hy]
  rfl

theorem mul_of_isFinite (hx : x.isFinite = true) (hy : y.isFinite = true) :
    x.mul y = nearest (x.isNegative ^^ y.isNegative) (x.absUnits * y.absUnits) unitsOfOne := by
  rw [mul, unlessNaN_of_isFinite hx hy, isInfinite_of_isFinite hx, isInfinite_of_isFinite hy]
  rfl

theorem div_of_isFinite (hx : x.isFinite = true) (hy : y.isFinite = true) (hne : y.magnitude ≠ 0) :
    x.div y = nearest (x.isNegative ^^ y.isNegative) (x.absUnits * unitsOfOne) y.absUnits := by
  rw [div, unlessNaN_of_isFinite hx hy, isInfinite_of_isFinite hx, isInfinite_of_isFinite hy,
    if_neg Bool.false_ne_true, if_neg Bool.false_ne_true, if_neg hne]
  rfl

theorem word_neg (x : Double) : x.neg.word = x.word ^^^ 2 ^ 63 := UInt64.toNat_xor _ _

theorem magnitude_neg (x : Double) : x.neg.magnitude = x.magnitude := by
  have hshift : 1 <<< 63 = 2 ^ 63 := rfl
  rw [magnitude, magnitude, word_neg, hshift, Nat.xor_mod_two_pow, Nat.mod_self, Nat.xor_zero]

theorem isNegative_neg (x : Double) : x.neg.isNegative = !x.isNegative := by
  have hshift : 1 <<< 63 = 2 ^ 63 := rfl
  have hword : x.word < 2 ^ 64 := x.bits.toNat_lt
  have htop : (x.word ^^^ 2 ^ 63) / 2 ^ 63 = x.word / 2 ^ 63 ^^^ 1 := by
    rw [Nat.xor_div_two_pow, Nat.div_self (Nat.two_pow_pos 63)]
  rw [isNegative, isNegative, word_neg, hshift, ← decide_not, decide_eq_decide]
  generalize x.word ^^^ 2 ^ 63 = flipped at htop ⊢
  have hbit : x.word / 2 ^ 63 = 0 ∨ x.word / 2 ^ 63 = 1 := by omega
  rcases hbit with hbit | hbit
  · have hone : flipped / 2 ^ 63 = 1 := by rw [htop, hbit, Nat.zero_xor]
    omega
  · have hzero : flipped / 2 ^ 63 = 0 := by rw [htop, hbit, Nat.xor_self]
    omega

theorem units_neg (x : Double) : x.neg.units = -x.units := by
  rw [units, units, isNegative_neg, absUnits_eq, absUnits_eq, magnitude_neg]
  cases x.isNegative <;> simp

theorem isFinite_neg (x : Double) : x.neg.isFinite = x.isFinite := by
  rw [isFinite, isFinite, magnitude_neg]

theorem sub_of_isFinite (hx : x.isFinite = true) (hy : y.isFinite = true) :
    x.sub y = x.add y.neg := by
  rw [sub, unlessNaN_of_isFinite hx hy]

theorem value_neg (x : Double) : x.neg.value = -x.value := by
  rw [value_eq_units_div, value_eq_units_div, units_neg, Int.cast_neg, neg_div]

theorem value_add_error (hx : x.isFinite = true) (hy : y.isFinite = true)
    (hfinite : (x.add y).isFinite = true) :
    |(x.add y).value - (x.value + y.value)| ≤ |x.value + y.value| / 2 ^ 53 := by
  rw [add_of_isFinite hx hy] at hfinite ⊢
  rw [value_add_value]
  generalize x.units + y.units = sum at hfinite ⊢
  by_cases hzero : sum = 0
  · rw [if_pos hzero, hzero, value_eq_units_div, (signedZero_spec _).2.1]
    simp
  · rw [if_neg hzero] at hfinite ⊢
    have herror := value_nearest_error Nat.one_pos (Or.inl (one_dvd _)) hfinite
    rw [Nat.cast_one, div_one, Nat.cast_natAbs, Int.cast_abs] at herror
    have hsigned : signed (decide (sum < 0)) (|(sum : ℚ)| / unitsOfOne) = sum / unitsOfOne := by
      rcases lt_or_ge sum 0 with hneg | hnonneg
      · have hnegq : (sum : ℚ) < 0 := by exact_mod_cast hneg
        rw [decide_eq_true hneg, signed, if_pos rfl, abs_of_neg hnegq, neg_div, neg_neg]
      · have hnonnegq : (0 : ℚ) ≤ sum := by exact_mod_cast hnonneg
        rw [decide_eq_false (not_lt.mpr hnonneg), signed, if_neg Bool.false_ne_true,
          abs_of_nonneg hnonnegq]
    have habs : |(sum : ℚ)| / unitsOfOne = |(sum : ℚ) / unitsOfOne| := by
      rw [abs_div, abs_of_pos cast_unitsOfOne_pos]
    rwa [hsigned, habs] at herror

theorem value_sub_error (hx : x.isFinite = true) (hy : y.isFinite = true)
    (hfinite : (x.sub y).isFinite = true) :
    |(x.sub y).value - (x.value - y.value)| ≤ |x.value - y.value| / 2 ^ 53 := by
  rw [sub_of_isFinite hx hy] at hfinite ⊢
  rw [← isFinite_neg] at hy
  have herror := value_add_error hx hy hfinite
  rwa [value_neg, ← sub_eq_add_neg] at herror

theorem abs_value_mul (x y : Double) :
    |x.value * y.value| = (x.absUnits * y.absUnits : ℕ) / unitsOfOne / unitsOfOne := by
  rw [abs_mul, abs_value, abs_value, Nat.cast_mul]
  ring

theorem value_mul_error (hx : x.isFinite = true) (hy : y.isFinite = true)
    (hwhole : unitsOfOne ∣ x.absUnits) (hfinite : (x.mul y).isFinite = true) :
    |(x.mul y).value - x.value * y.value| ≤ |x.value * y.value| / 2 ^ 53 := by
  have hvalue : x.value * y.value = signed (x.isNegative ^^ y.isNegative)
      ((x.absUnits * y.absUnits : ℕ) / unitsOfOne / unitsOfOne) := by
    rw [value, value, signed_mul, Nat.cast_mul]
    congr 1
    ring
  rw [mul_of_isFinite hx hy] at hfinite ⊢
  rw [abs_value_mul, hvalue]
  exact value_nearest_error unitsOfOne_pos (Or.inl (Dvd.dvd.mul_right hwhole y.absUnits)) hfinite

/-- A quotient is off by one part in `2 ^ 53` at most, or so small that it is not a half. -/
theorem value_div_error (hx : x.isFinite = true) (hy : y.isFinite = true) (hne : y.magnitude ≠ 0)
    (hfinite : (x.div y).isFinite = true) :
    |(x.div y).value - x.value / y.value| ≤ |x.value / y.value| / 2 ^ 53 ∨
      |(x.div y).value| ≤ 1 / 2 := by
  have hpos : 0 < y.absUnits := Nat.pos_of_ne_zero (mt (magnitude_eq_zero_iff y).2 hne)
  rw [div_of_isFinite hx hy hne] at hfinite ⊢
  rcases Nat.lt_or_ge (x.absUnits * unitsOfOne) (2 ^ 53 * y.absUnits) with hlt | hge
  · right
    have hunits : 2 ^ 54 ≤ unitsOfOne := by decide +kernel
    have hunitsq : (2 : ℚ) ^ 54 ≤ unitsOfOne := by exact_mod_cast hunits
    have hle := unitsOfMagnitude_le hlt
    have hleq : (unitsOfMagnitude (nearestMagnitude (x.absUnits * unitsOfOne) y.absUnits) : ℚ) ≤
        2 ^ 53 := by exact_mod_cast hle
    rw [abs_value, absUnits_nearest hfinite, div_le_iff₀ cast_unitsOfOne_pos]
    linarith
  · left
    have hvalue : x.value / y.value = signed (x.isNegative ^^ y.isNegative)
        ((x.absUnits * unitsOfOne : ℕ) / y.absUnits / unitsOfOne) := by
      rw [value, value, signed_div, Nat.cast_mul]
      congr 1
      field_simp
    have habs : |x.value / y.value| =
        (x.absUnits * unitsOfOne : ℕ) / y.absUnits / unitsOfOne := by
      rw [abs_div, abs_value, abs_value, Nat.cast_mul]
      field_simp
    rw [habs, hvalue]
    exact value_nearest_error hpos (Or.inr hge) hfinite

end Operations

section Order

variable {x y z : Double}

/-- The key of the number nearest to a whole number of units. -/
def nearestKey (n : Int) : Int :=
  if n < 0 then -(min (nearestMagnitude n.natAbs 1) infiniteMagnitude : Nat)
  else (min (nearestMagnitude n.natAbs 1) infiniteMagnitude : Nat)

theorem nearestKey_mono {m n : Int} (h : m ≤ n) : nearestKey m ≤ nearestKey n := by
  have hmono {a b : Nat} (hab : a ≤ b) : nearestMagnitude a 1 ≤ nearestMagnitude b 1 :=
    nearestMagnitude_mono hab
  unfold nearestKey
  rcases lt_or_ge m 0 with hm | hm
  · rcases lt_or_ge n 0 with hn | hn
    · have hle := hmono (a := n.natAbs) (b := m.natAbs) (by omega)
      rw [if_pos hm, if_pos hn]
      omega
    · rw [if_pos hm, if_neg (by omega)]
      omega
  · have hle := hmono (a := m.natAbs) (b := n.natAbs) (by omega)
    rw [if_neg (by omega), if_neg (by omega)]
    omega

theorem key_add_of_isFinite (hx : x.isFinite = true) (hy : y.isFinite = true) :
    (x.add y).key = nearestKey (x.units + y.units) := by
  rw [add_of_isFinite hx hy]
  generalize x.units + y.units = sum
  by_cases hzero : sum = 0
  · rw [if_pos hzero, hzero, (signedZero_spec _).2.2]
    decide +kernel
  · rw [if_neg hzero, key, isNegative_nearest, magnitude_nearest, nearestKey]
    simp only [decide_eq_true_eq]

theorem natAbs_units (x : Double) : x.units.natAbs = x.absUnits := by
  unfold units
  split <;> omega

theorem nearestKey_units (hx : x.isFinite = true) : nearestKey x.units = x.key := by
  have hlt : x.magnitude < infiniteMagnitude := of_decide_eq_true hx
  obtain ⟨habs, -, hfinite⟩ := nearest_of_fits (fits_absUnits x) ((isFinite_iff x).mp hx) false
  have hmagnitude : nearestMagnitude x.absUnits 1 = x.magnitude := by
    rw [absUnits_nearest hfinite, absUnits_eq] at habs
    exact unitsOfMagnitude_strictMono.injective habs
  have hzero := x.magnitude_eq_zero_iff
  rw [nearestKey, natAbs_units, hmagnitude, Nat.min_eq_left hlt.le, units, key]
  split <;> split <;> omega

theorem value_le_iff : x.value ≤ y.value ↔ x.key ≤ y.key := by
  rw [value_eq_units_div, value_eq_units_div, div_unitsOfOne_le_iff, ← not_lt, ← not_lt, key_lt_iff]

theorem natAbs_key (x : Double) : x.key.natAbs = x.magnitude := by
  unfold key
  split <;> omega

theorem isFinite_of_key_between (hy : y.isFinite = true) (hz : z.isFinite = true)
    (hlow : y.key ≤ x.key) (hhigh : x.key ≤ z.key) : x.isFinite = true := by
  have hyb := key_between hy
  have hzb := key_between hz
  have hx := x.natAbs_key
  exact decide_eq_true (by omega)

/-- A sum that lies between finite numbers does so when it has been rounded. -/
theorem add_between (hx : x.isFinite = true) (hy : y.isFinite = true) {a b : Double}
    (ha : a.isFinite = true) (hb : b.isFinite = true) (hlow : a.value ≤ x.value + y.value)
    (hhigh : x.value + y.value ≤ b.value) :
    (x.add y).isFinite = true ∧ a.value ≤ (x.add y).value ∧ (x.add y).value ≤ b.value := by
  rw [value_add_value, value_eq_units_div, div_unitsOfOne_le_iff] at hlow hhigh
  have hkeylow : a.key ≤ (x.add y).key := by
    rw [key_add_of_isFinite hx hy, ← nearestKey_units ha]
    exact nearestKey_mono hlow
  have hkeyhigh : (x.add y).key ≤ b.key := by
    rw [key_add_of_isFinite hx hy, ← nearestKey_units hb]
    exact nearestKey_mono hhigh
  exact ⟨isFinite_of_key_between ha hb hkeylow hkeyhigh, value_le_iff.mpr hkeylow,
    value_le_iff.mpr hkeyhigh⟩

theorem between_of_lt_eq_false (hx : x.isNaN = false) (hy : y.isFinite = true)
    (hz : z.isFinite = true) (hlow : x.lt y = false) (hhigh : z.lt x = false) :
    x.isFinite = true ∧ y.value ≤ x.value ∧ x.value ≤ z.value := by
  have hkeylow : y.key ≤ x.key := by simpa [lt, hx, isNaN_of_isFinite hy] using hlow
  have hkeyhigh : x.key ≤ z.key := by simpa [lt, hx, isNaN_of_isFinite hz] using hhigh
  exact ⟨isFinite_of_key_between hy hz hkeylow hkeyhigh, value_le_iff.mpr hkeylow,
    value_le_iff.mpr hkeyhigh⟩

end Order

section Infinities

variable {x y : Double}

theorem isInfinite_of_not_isFinite (hnan : x.isNaN = false) (h : x.isFinite = false) :
    x.isInfinite = true := by
  have hnotnan : ¬ infiniteMagnitude < x.magnitude := of_decide_eq_false hnan
  have hnotfinite : ¬ x.magnitude < infiniteMagnitude := of_decide_eq_false h
  exact decide_eq_true (by omega)

theorem isNaN_nearest (negative : Bool) (num den : Nat) :
    (nearest negative num den).isNaN = false := by
  rw [isNaN, magnitude_nearest]
  exact decide_eq_false (by omega)

theorem add_of_isInfinite (hnan : x.isNaN = false) (hx : x.isInfinite = true)
    (hy : y.isFinite = true) : x.add y = x := by
  rw [add, unlessNaN, hnan, isNaN_of_isFinite hy, isInfinite_of_isFinite hy, hx]
  simp

theorem isFinite_of_add (hnan : x.isNaN = false) (hy : y.isFinite = true)
    (h : (x.add y).isFinite = true) : x.isFinite = true := by
  cases hx : x.isFinite with
  | true => rfl
  | false => rwa [add_of_isInfinite hnan (isInfinite_of_not_isFinite hnan hx) hy, hx] at h

theorem isNaN_add (hx : x.isFinite = true) (hy : y.isFinite = true) : (x.add y).isNaN = false := by
  rw [add_of_isFinite hx hy]
  split
  · exact isNaN_of_isFinite (signedZero_spec _).1
  · exact isNaN_nearest _ _ _

theorem isNaN_sub (hx : x.isFinite = true) (hy : y.isFinite = true) : (x.sub y).isNaN = false := by
  rw [sub_of_isFinite hx hy]
  exact isNaN_add hx (by rwa [isFinite_neg])

theorem div_of_isInfinite (hnan : x.isNaN = false) (hx : x.isInfinite = true)
    (hy : y.isFinite = true) : x.div y = infinity (x.isNegative ^^ y.isNegative) := by
  rw [div, unlessNaN, hnan, isNaN_of_isFinite hy, isInfinite_of_isFinite hy, hx]
  simp

theorem isFinite_of_div (hnan : x.isNaN = false) (hy : y.isFinite = true)
    (h : (x.div y).isFinite = true) : x.isFinite = true := by
  cases hx : x.isFinite with
  | true => rfl
  | false =>
    rw [div_of_isInfinite hnan (isInfinite_of_not_isFinite hnan hx) hy] at h
    generalize (x.isNegative ^^ y.isNegative) = negative at h
    cases negative <;> exact absurd h (by decide)

theorem isNaN_div (hnan : x.isNaN = false) (hy : y.isFinite = true) (hne : y.magnitude ≠ 0) :
    (x.div y).isNaN = false := by
  cases hx : x.isFinite with
  | true =>
    rw [div_of_isFinite hx hy hne]
    exact isNaN_nearest _ _ _
  | false =>
    rw [div_of_isInfinite hnan (isInfinite_of_not_isFinite hnan hx) hy]
    cases x.isNegative ^^ y.isNegative <;> decide

/-- Every finite number is less, and a result does not overflow that would still be less with an
error of one part in `2 ^ 53`. -/
def limit : ℚ := 2 ^ 1024

theorem limit_mul_unitsOfOne : limit * unitsOfOne = unitsOfMagnitude infiniteMagnitude := by
  rw [unitsOfMagnitude_infinite, unitsOfOne_eq, limit, Nat.cast_pow, Nat.cast_mul, Nat.cast_pow,
    Nat.cast_pow, Nat.cast_ofNat, ← pow_add, ← pow_add]

theorem abs_value_lt (hx : x.isFinite = true) : |x.value| < limit := by
  have hlt := (isFinite_iff x).mp hx
  rw [abs_value, div_lt_iff₀ cast_unitsOfOne_pos, limit_mul_unitsOfOne]
  exact_mod_cast hlt

theorem isFinite_nearest {negative : Bool} {num den : Nat} (hden : 0 < den)
    (h : den ∣ num ∨ 2 ^ 53 * den ≤ num)
    (hlt : (1 + 1 / 2 ^ 53) * (num / den / unitsOfOne : ℚ) < limit) :
    (nearest negative num den).isFinite = true := by
  obtain ⟨-, herror⟩ := abs_le.mp (unitsOfMagnitude_error hden h)
  rw [← mul_div_assoc, div_lt_iff₀ cast_unitsOfOne_pos, limit_mul_unitsOfOne] at hlt
  have hunits : (unitsOfMagnitude (nearestMagnitude num den) : ℚ) <
      unitsOfMagnitude infiniteMagnitude := by linarith
  have hmagnitude : nearestMagnitude num den < infiniteMagnitude :=
    unitsOfMagnitude_strictMono.lt_iff_lt.mp (by exact_mod_cast hunits)
  rw [isFinite, magnitude_nearest]
  exact decide_eq_true (by omega)

theorem isFinite_add (hx : x.isFinite = true) (hy : y.isFinite = true)
    (hlt : (1 + 1 / 2 ^ 53) * |x.value + y.value| < limit) : (x.add y).isFinite = true := by
  have hsum : |x.value + y.value| = (x.units + y.units).natAbs / (1 : ℕ) / unitsOfOne := by
    rw [value_add_value, abs_div, abs_of_pos cast_unitsOfOne_pos, Nat.cast_natAbs, Int.cast_abs,
      Nat.cast_one, div_one]
  rw [add_of_isFinite hx hy]
  split
  · exact (signedZero_spec _).1
  · exact isFinite_nearest Nat.one_pos (Or.inl (one_dvd _)) (by rwa [hsum] at hlt)

theorem isFinite_mul (hx : x.isFinite = true) (hy : y.isFinite = true)
    (hwhole : unitsOfOne ∣ x.absUnits) (hlt : (1 + 1 / 2 ^ 53) * |x.value * y.value| < limit) :
    (x.mul y).isFinite = true := by
  rw [abs_value_mul] at hlt
  rw [mul_of_isFinite hx hy]
  exact isFinite_nearest unitsOfOne_pos (Or.inl (Dvd.dvd.mul_right hwhole y.absUnits)) hlt

end Infinities

section Whole

theorem ofInt_whole {n : Int} (h : n.natAbs < 2 ^ 53) :
    (ofInt n).isFinite = true ∧ unitsOfOne ∣ (ofInt n).absUnits ∧ (ofInt n).value = n := by
  obtain ⟨hunits, hfinite⟩ := ofInt_exact h
  refine ⟨hfinite, ⟨n.natAbs, ?_⟩, ?_⟩
  · rw [← natAbs_units, hunits, Int.natAbs_mul, Int.natAbs_natCast, Nat.mul_comm]
  · rw [value_eq_units_div, hunits, Int.cast_mul, Int.cast_natCast,
      mul_div_cancel_right₀ _ cast_unitsOfOne_pos.ne']

theorem floor_eq (x : Double) : x.floor = ⌊x.value⌋ := by
  rw [value_eq_units_div, Rat.floor_intCast_div_natCast, floor]

end Whole

end Double

end Deferred
