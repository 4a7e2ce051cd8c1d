import Mathlib.Data.Rat.Floor
import Mathlib.Tactic.FieldSimp
import Deferred.Proofs.Double.Exact
import Deferred.Proofs.Vector.Laws

set_option autoImplicit false

namespace Deferred

/-- The whole number that a rational is cut to, toward zero. -/
def wholePart (q : ℚ) : ℤ := if 0 ≤ q then ⌊q⌋ else ⌈q⌉

theorem wholePart_div (n : ℤ) {d : ℕ} (hd : 0 < d) : wholePart (n / d) = n.tdiv d := by
  have hdq : (0 : ℚ) < d := by exact_mod_cast hd
  unfold wholePart
  by_cases hn : 0 ≤ n
  · have hq : (0 : ℚ) ≤ n / d := div_nonneg (by exact_mod_cast hn) hdq.le
    rw [if_pos hq, Rat.floor_intCast_div_natCast, Int.tdiv_eq_ediv_of_nonneg hn]
  · have hq : ¬ (0 : ℚ) ≤ n / d := by
      rw [not_le]
      exact div_neg_of_neg_of_pos (by exact_mod_cast not_le.mp hn) hdq
    have hneg : ((-n : ℤ) : ℚ) / d = -(n / d) := by push_cast; ring
    have hfloor : ⌊-((n : ℚ) / d)⌋ = -n / d := by rw [← hneg, Rat.floor_intCast_div_natCast]
    rw [if_neg hq, ← neg_neg ((n : ℚ) / d), Int.ceil_neg, hfloor,
      ← Int.tdiv_eq_ediv_of_nonneg (by omega), Int.neg_tdiv, neg_neg]

namespace Double

/-- The exact absolute value of a finite number: a significand below two, which has a leading one
unless the exponent field is zero, and a power of two. -/
def absValue (x : Double) : ℚ :=
  if x.exponentField = 0 then (x.fractionField / 2 ^ 52 : ℚ) * 2 ^ (-1022 : ℤ)
  else (1 + x.fractionField / 2 ^ 52 : ℚ) * 2 ^ ((x.exponentField : ℤ) - 1023)

/-- The exact value, of a number that is finite. -/
def value? (x : Double) : Option ℚ :=
  if x.isFinite then some (if x.isNegative then -x.absValue else x.absValue) else none

theorem two_zpow_mul_unitsOfOne (a : ℤ) : (2 : ℚ) ^ (a - 1022) * unitsOfOne = 2 ^ 52 * 2 ^ a := by
  have hpower (k n : ℕ) (hn : n = k + 52) : (2 : ℚ) ^ (a - k) * (2 ^ n : ℕ) = 2 ^ 52 * 2 ^ a := by
    rw [hn, zpow_sub₀ two_ne_zero, zpow_natCast, Nat.cast_pow, pow_add]
    push_cast
    field_simp
  rw [unitsOfOne_eq]
  exact hpower 1022 1074 rfl

theorem absUnits_eq_absValue (x : Double) : (x.absUnits : ℚ) = x.absValue * unitsOfOne := by
  have hshift : 1 <<< 52 = 2 ^ 52 := rfl
  rw [absUnits, absValue]
  by_cases he : x.exponentField = 0
  · have hpower := two_zpow_mul_unitsOfOne 0
    rw [zero_sub, zpow_zero, mul_one] at hpower
    rw [if_pos he, if_pos he, mul_assoc, hpower]
    field_simp
  · obtain ⟨e, he'⟩ := Nat.exists_eq_succ_of_ne_zero he
    have hexponent : ((x.exponentField : ℕ) : ℤ) - 1023 = (e : ℤ) - 1022 := by omega
    rw [if_neg he, if_neg he, mul_assoc, hexponent, two_zpow_mul_unitsOfOne, hshift, he',
      Nat.succ_sub_one, Nat.shiftLeft_eq, zpow_natCast]
    push_cast
    field_simp
    norm_num

theorem cast_unitsOfOne_pos : (0 : ℚ) < unitsOfOne := by exact_mod_cast unitsOfOne_pos

theorem value?_of_isFinite {x : Double} (h : x.isFinite = true) :
    x.value? = some ((x.units : ℚ) / unitsOfOne) := by
  have hvalue : (if x.isNegative then -x.absValue else x.absValue) =
      (x.units : ℚ) / unitsOfOne := by
    rw [eq_div_iff cast_unitsOfOne_pos.ne', units]
    cases x.isNegative <;> simp [absUnits_eq_absValue]
  rw [value?, if_pos h, hvalue]

theorem wholePart_value {x : Double} {q : ℚ} (hq : x.value? = some q) :
    wholePart q = x.truncate := by
  by_cases h : x.isFinite
  · rw [value?_of_isFinite h] at hq
    obtain rfl := Option.some.inj hq
    exact wholePart_div x.units unitsOfOne_pos
  · rw [value?, if_neg h] at hq
    contradiction

/-- What a double is as an integer: its exact value cut toward zero, if that is a 32-bit integer
other than the least one, and missing otherwise. -/
inductive CutsTo (x : Double) : Int32 → Prop where
  | whole {q : ℚ} {n : Int32} : x.value? = some q → |wholePart q| ≤ 2147483647 →
      n.toInt = wholePart q → CutsTo x n
  | outOfRange {q : ℚ} : x.value? = some q → 2147483647 < |wholePart q| →
      CutsTo x Kind.missingInt
  | notFinite : x.value? = none → CutsTo x Kind.missingInt

theorem natAbs_toInt_lt (n : Int32) : n.toInt.natAbs < 2 ^ 53 := by
  have hlow := n.le_toInt
  have hhigh := n.toInt_lt
  omega

theorem truncate_of_units_eq {x : Double} {n : ℤ} (h : x.units = n * unitsOfOne) :
    x.truncate = n := by
  have hone : (unitsOfOne : ℤ) ≠ 0 := by exact_mod_cast unitsOfOne_pos.ne'
  rw [truncate, h, Int.mul_tdiv_cancel n hone]

theorem units_le_units_iff {x y : Double} {m n : ℤ} (hx : x.units = m * unitsOfOne)
    (hy : y.units = n * unitsOfOne) : x.units ≤ y.units ↔ m ≤ n := by
  rw [hx, hy]
  exact mul_le_mul_iff_of_pos_right (by exact_mod_cast unitsOfOne_pos)

theorem ofInt_lt_iff {x : Double} {n : ℤ} (hx : x.isFinite = true)
    (hunits : x.units = n * unitsOfOne) (m : Int32) :
    (ofInt m.toInt).lt x = true ↔ m.toInt < n := by
  obtain ⟨hm, hfinite⟩ := ofInt_exact (natAbs_toInt_lt m)
  rw [lt_iff hfinite hx, ← not_le, units_le_units_iff hunits hm, not_le]

theorem le_ofInt_iff {x : Double} {n : ℤ} (hx : x.isFinite = true)
    (hunits : x.units = n * unitsOfOne) (m : Int32) :
    x.le (ofInt m.toInt) = true ↔ n ≤ m.toInt := by
  obtain ⟨hm, hfinite⟩ := ofInt_exact (natAbs_toInt_lt m)
  rw [le_iff hx hfinite, units_le_units_iff hunits hm]

theorem key_between {x : Double} (h : x.isFinite = true) :
    -(infiniteMagnitude : ℤ) < x.key ∧ x.key < infiniteMagnitude := by
  have hlt : x.magnitude < infiniteMagnitude := of_decide_eq_true h
  unfold key
  split <;> omega

end Double

namespace Kind

open Double

theorem toInt32_of_isFinite {x : Double} (h : x.isFinite = true) :
    x.toInt32 = Int32.ofInt (max (-2147483648) (min 2147483647 x.truncate)) := by
  have hlt : x.magnitude < infiniteMagnitude := of_decide_eq_true h
  have hinfinite : x.isInfinite = false := decide_eq_false (Nat.ne_of_lt hlt)
  rw [toInt32, isNaN_of_isFinite h, hinfinite]
  rfl

/-- The test in doubles lets through just the whole parts that are 32-bit integers other than the
least one, so that none is clamped. -/
theorem doubleToInt_of_isFinite {x : Double} (h : x.isFinite = true) :
    doubleToInt x =
      if -2147483648 < x.truncate ∧ x.truncate ≤ 2147483647 then Int32.ofInt x.truncate
      else missingInt := by
  obtain ⟨hunits, hfinite⟩ := roundTowardZero_exact h
  have hmax : (ofInt Int32.maxValue.toInt).lt x.roundTowardZero = true ↔
      2147483647 < x.truncate := ofInt_lt_iff hfinite hunits Int32.maxValue
  have hmin : x.roundTowardZero.le (ofInt missingInt.toInt) = true ↔
      x.truncate ≤ -2147483648 := le_ofInt_iff hfinite hunits missingInt
  have hcut := toInt32_of_isFinite hfinite
  rw [truncate_of_units_eq hunits] at hcut
  rw [doubleToInt, isNaN_of_isFinite h, if_neg Bool.false_ne_true]
  simp only [Bool.or_eq_true, hmax, hmin, hcut]
  by_cases hrange : -2147483648 < x.truncate ∧ x.truncate ≤ 2147483647
  · have hclamp : max (-2147483648) (min 2147483647 x.truncate) = x.truncate := by omega
    rw [if_pos hrange, if_neg (by omega), hclamp]
  · rw [if_neg hrange, if_pos (by omega)]

theorem doubleToInt_of_not_isFinite {x : Double} (h : x.isFinite = false) :
    doubleToInt x = missingInt := by
  by_cases hnan : x.isNaN
  · rw [doubleToInt, if_pos hnan]
  · have hnotfinite : ¬ x.magnitude < infiniteMagnitude := of_decide_eq_false h
    have hnotnan : ¬ infiniteMagnitude < x.magnitude := fun hlt => hnan (decide_eq_true hlt)
    obtain ⟨-, hmax⟩ := ofInt_exact (natAbs_toInt_lt Int32.maxValue)
    obtain ⟨-, hmin⟩ := ofInt_exact (natAbs_toInt_lt missingInt)
    have hmaxkey := (key_between hmax).2
    have hminkey := (key_between hmin).1
    have hkey : x.key = infiniteMagnitude ∨ x.key = -(infiniteMagnitude : ℤ) := by
      unfold key
      split <;> omega
    have htest : ((ofInt Int32.maxValue.toInt).lt x || x.le (ofInt missingInt.toInt)) = true := by
      simp only [Double.lt, Double.le, isNaN_of_isFinite hmax, isNaN_of_isFinite hmin, hnan,
        Bool.not_false, Bool.and_self, Bool.true_and, Bool.or_eq_true, decide_eq_true_eq]
      omega
    rw [doubleToInt, if_neg hnan, roundTowardZero, h, if_neg Bool.false_ne_true, if_pos htest]

theorem cutsTo_iff {x : Double} {n : Int32} : x.CutsTo n ↔ doubleToInt x = n := by
  by_cases h : x.isFinite
  · have hvalue := value?_of_isFinite h
    rw [doubleToInt_of_isFinite h]
    constructor
    · rintro (⟨hq, hle, hn⟩ | ⟨hq, hlt⟩ | hnone)
      · rw [wholePart_value hq] at hle hn
        have hrange := abs_le.mp hle
        rw [if_pos (by omega), ← hn, Int32.ofInt_toInt]
      · rw [wholePart_value hq] at hlt
        have hrange := lt_abs.mp hlt
        rw [if_neg (by omega)]
      · rw [hvalue] at hnone
        contradiction
    · rintro rfl
      by_cases hrange : -2147483648 < x.truncate ∧ x.truncate ≤ 2147483647
      · rw [if_pos hrange]
        refine .whole hvalue ?_ ?_
        · rw [wholePart_value hvalue, abs_le]
          omega
        · rw [wholePart_value hvalue, Int32.toInt_ofInt_of_le (by omega) (by omega)]
      · rw [if_neg hrange]
        refine .outOfRange hvalue ?_
        rw [wholePart_value hvalue, lt_abs]
        omega
  · have hnone : x.value? = none := if_neg h
    rw [doubleToInt_of_not_isFinite (Bool.eq_false_iff.mpr h)]
    constructor
    · rintro (⟨hq, -, -⟩ | ⟨hq, -⟩ | -)
      · rw [hnone] at hq
        contradiction
      · rfl
      · rfl
    · rintro rfl
      exact .notFinite hnone

/-- Each kind can hold the elements of the kinds before it: logicals, integers, doubles. -/
def width : Kind → Nat
  | logical => 0
  | int => 1
  | double => 2

theorem doubleToInt_intToDouble (n : Int32) : doubleToInt (intToDouble n) = n := by
  by_cases hn : n = missingInt
  · rw [hn]
    exact convert_missing .double .int
  · obtain ⟨hunits, hfinite⟩ := ofInt_exact (natAbs_toInt_lt n)
    have hne : n.toInt ≠ -2147483648 := fun h => hn (Int32.toInt_inj.mp h)
    have hlow := n.le_toInt
    have hhigh := n.toInt_lt
    rw [intToDouble, if_neg hn, doubleToInt_of_isFinite hfinite, truncate_of_units_eq hunits,
      if_pos (by omega), Int32.ofInt_toInt]

theorem doubleToLogical_intToDouble (n : Int32) :
    doubleToLogical (intToDouble n) = intToLogical n := by
  by_cases hn : n = missingInt
  · rw [hn]
    rfl
  · obtain ⟨hunits, hfinite⟩ := ofInt_exact (natAbs_toInt_lt n)
    have hpos := unitsOfOne_pos
    have hzero : (ofInt n.toInt).magnitude = 0 ↔ n = 0 := by
      have habs : (ofInt n.toInt).absUnits = 0 ↔ (ofInt n.toInt).units = 0 := by
        rw [units]
        split <;> omega
      rw [magnitude_eq_zero_iff, habs, hunits, mul_eq_zero, ← Int32.toInt_inj]
      refine or_iff_left ?_
      omega
    rw [intToDouble, intToLogical, if_neg hn, if_neg hn, doubleToLogical,
      isNaN_of_isFinite hfinite, if_neg Bool.false_ne_true]
    simp only [ne_eq, hzero]

theorem intToDouble_logicalToInt (x : Logical) :
    intToDouble (logicalToInt x) = logicalToDouble x := by
  cases x <;> decide +kernel

theorem intToLogical_logicalToInt (x : Logical) : intToLogical (logicalToInt x) = x := by
  cases x <;> rfl

theorem convert_int_double (t : Kind) (n : Int32) :
    convert .double t (intToDouble n) = convert .int t n := by
  cases t with
  | int => exact doubleToInt_intToDouble n
  | double => rfl
  | logical => exact doubleToLogical_intToDouble n

theorem convert_logical_int (t : Kind) (x : Logical) :
    convert .int t (logicalToInt x) = convert .logical t x := by
  cases t with
  | int => rfl
  | double => exact intToDouble_logicalToInt x
  | logical => exact intToLogical_logicalToInt x

/-- Nothing is lost on the way through a kind that is at least as wide. -/
theorem convert_convert {k s : Kind} (h : k.width ≤ s.width) (t : Kind) (x : k.Elem) :
    convert s t (convert k s x) = convert k t x := by
  cases k with
  | int =>
    cases s with
    | int => rfl
    | double => exact convert_int_double t x
    | logical => exact absurd h (by decide)
  | double =>
    cases s with
    | double => rfl
    | int => exact absurd h (by decide)
    | logical => exact absurd h (by decide)
  | logical =>
    cases s with
    | int => exact convert_logical_int t x
    | double =>
      calc convert .double t (logicalToDouble x)
        _ = convert .double t (intToDouble (logicalToInt x)) := by rw [intToDouble_logicalToInt]
        _ = convert .int t (logicalToInt x) := convert_int_double t _
        _ = convert .logical t x := convert_logical_int t x
    | logical => rfl

end Kind

variable {k : Kind}

theorem Plain.coerce_coerce {s : Kind} (h : k.width ≤ s.width) (p : Plain k) (t : Kind) :
    (p.coerce s).coerce t = p.coerce t := by
  simp only [coerce, List.map_map]
  congr 1
  exact List.map_congr_left fun x _ => Kind.convert_convert h t x

namespace Vec

theorem coerce_self (v : Vec k) (st : Store) : v.coerce k st = (v, st) := by
  rw [coerce.eq_def, dif_pos rfl]

theorem Sound.coerce_coerce {v : Vec k} {st : Store} (hv : v.Sound st) {s : Kind}
    (h : k.width ≤ s.width) (t : Kind) :
    let middle := v.coerce s st
    let chained := middle.1.coerce t middle.2
    let direct := v.coerce t st
    chained.1.Alike chained.2 direct.1 direct.2 := by
  intro middle chained direct
  have hmiddle := makes_coerce hv s
  have hchained := makes_coerce hmiddle.sound t
  have hdirect := makes_coerce hv t
  refine hchained.sound.alike hdirect.sound ?_
  rw [hchained.plain_eq, hmiddle.plain_eq, hdirect.plain_eq]
  exact Plain.coerce_coerce h (v.plain st) t

theorem Sound.coerce_back {v : Vec k} {st : Store} (hv : v.Sound st) {s : Kind}
    (h : k.width ≤ s.width) :
    let middle := v.coerce s st
    let back := middle.1.coerce k middle.2
    back.1.Alike back.2 v st := by
  intro middle back
  have hback := hv.coerce_coerce h k
  rw [v.coerce_self st] at hback
  exact hback

theorem Sound.coerce_int_element {v : Vec .double} {st : Store} (hv : v.Sound st) {i : Nat}
    {x : Double} (hx : v.element? st i = some x) :
    let cut := v.coerce .int st
    ∃ n, cut.1.element? cut.2 i = some n ∧ ∀ m, x.CutsTo m ↔ m = n := by
  intro cut
  have hread := hv.element_coerce .int i
  rw [hx] at hread
  exact ⟨Kind.doubleToInt x, hread, fun m => Kind.cutsTo_iff.trans eq_comm⟩

end Vec

end Deferred
