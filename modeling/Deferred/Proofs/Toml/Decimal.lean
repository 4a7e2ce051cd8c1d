import Deferred.Toml.Scalar

set_option autoImplicit false

namespace Deferred.Toml

/-- All characters are decimal digits. -/
def AllDigits (cs : List Char) : Prop := ∀ c ∈ cs, isDigit c = true

theorem isDigit_eq (c : Char) : isDigit c = c.isDigit := by
  rw [isDigit, Char.isDigit]
  rfl

theorem allDigits_toDigits (n : Nat) : AllDigits (Nat.toDigits 10 n) := by
  intro c hc
  rw [isDigit_eq]
  exact Nat.isDigit_of_mem_toDigits (by decide) (by decide) hc

theorem isScalarChar_of_isDigit {c : Char} (h : isDigit c = true) : isScalarChar c = true := by
  simp [isScalarChar, h]

theorem AllDigits.ne_of_mem {cs : List Char} (h : AllDigits cs) {c d : Char} (hc : c ∈ cs)
    (hd : isDigit d = false) : c ≠ d := by
  rintro rfl
  exact Bool.false_ne_true (hd.symm.trans (h c hc))

theorem digitRun?_of_allDigits {cs : List Char} (h : AllDigits cs) (hne : cs ≠ []) :
    digitRun? isDigit cs = some cs := by
  induction cs with
  | nil => exact absurd rfl hne
  | cons c cs ih =>
    have hc : isDigit c = true := h c List.mem_cons_self
    have hcs : AllDigits cs := fun d hd => h d (List.mem_cons_of_mem c hd)
    cases cs with
    | nil => rw [digitRun?, if_pos hc]
    | cons d ds =>
      have hd : d ≠ '_' := h.ne_of_mem (by simp) rfl
      rw [digitRun?.eq_4 _ _ _ (by simp) (by simpa using hd), if_pos hc, ih hcs (by simp)]
      rfl

theorem hexDigit?_of_isDigit {c : Char} (h : isDigit c = true) :
    (hexDigit? c).getD 0 = c.toNat - '0'.toNat := by
  have hbounds : '0' ≤ c ∧ c ≤ '9' := by simpa [isDigit] using h
  rw [hexDigit?, if_pos hbounds, Option.getD_some]

theorem natOfDigits_eq {cs : List Char} (h : AllDigits cs) :
    natOfDigits 10 cs = Nat.ofDigitChars 10 cs 0 := by
  suffices hfold : ∀ a, cs.foldl (fun n c => 10 * n + (hexDigit? c).getD 0) a =
      Nat.ofDigitChars 10 cs a from hfold 0
  intro a
  induction cs generalizing a with
  | nil => rfl
  | cons c cs ih =>
    rw [List.foldl_cons, Nat.ofDigitChars_cons, hexDigit?_of_isDigit (h c List.mem_cons_self)]
    exact ih (fun d hd => h d (List.mem_cons_of_mem c hd)) _

theorem head?_toDigits_ne {n : Nat} (hn : 0 < n) : (Nat.toDigits 10 n).head? ≠ some '0' := by
  induction n using Nat.strongRecOn with
  | ind n ih =>
    by_cases hlt : n < 10
    · rw [Nat.toDigits_of_lt_base hlt, List.head?_cons, ne_eq, Option.some.injEq,
        Nat.digitChar_eq_zero]
      omega
    · have hfirst := ih (n / 10) (by omega) (by omega)
      rw [Nat.toDigits_of_base_le (by decide) (by omega)]
      cases hds : Nat.toDigits 10 (n / 10) with
      | nil => exact absurd hds Nat.toDigits_ne_nil
      | cons d ds => rwa [hds] at hfirst

theorem decimalDigits?_toDigits (n : Nat) :
    decimalDigits? (Nat.toDigits 10 n) = some (Nat.toDigits 10 n) := by
  rw [decimalDigits?]
  · exact digitRun?_of_allDigits (allDigits_toDigits n) Nat.toDigits_ne_nil
  · intro c r hcs
    rcases Nat.eq_zero_or_pos n with rfl | hn
    · simp at hcs
    · exact head?_toDigits_ne hn (by rw [hcs]; rfl)

theorem AllDigits.ne_cons {cs : List Char} (h : AllDigits cs) {c : Char} (hc : isDigit c = false)
    (r : List Char) : cs ≠ c :: r := by
  rintro rfl
  exact h.ne_of_mem List.mem_cons_self hc rfl

theorem splitSign_of_allDigits {cs : List Char} (h : AllDigits cs) :
    splitSign cs = (false, cs) := by
  rw [splitSign]
  · exact h.ne_cons rfl
  · exact h.ne_cons rfl

theorem ofInteger?_toDigits (n : Nat) : ofInteger? (Nat.toDigits 10 n) = inRange n := by
  have hdigits := allDigits_toDigits n
  have hsecond {b : Char} (hb : isDigit b = false) (r : List Char) :
      Nat.toDigits 10 n ≠ '0' :: b :: r := by
    intro hcs
    rw [hcs] at hdigits
    exact hdigits.ne_of_mem (c := b) (by simp) hb rfl
  rw [ofInteger?]
  · simp only [splitSign_of_allDigits hdigits, decimalDigits?_toDigits, Option.bind_some,
      natOfDigits_eq hdigits, Nat.ofDigitChars_toDigits (b := 10) (by decide) (by decide)]
    rfl
  · exact hsecond rfl
  · exact hsecond rfl
  · exact hsecond rfl

theorem ofInteger?_neg_toDigits (n : Nat) :
    ofInteger? ('-' :: Nat.toDigits 10 n) = inRange (-(n : Int)) := by
  rw [ofInteger?]
  · simp only [splitSign, decimalDigits?_toDigits, Option.bind_some,
      natOfDigits_eq (allDigits_toDigits n),
      Nat.ofDigitChars_toDigits (b := 10) (by decide) (by decide)]
    rfl
  all_goals simp

/-- There is neither a date nor a time without a mark between its parts. -/
theorem isDateTime_of_allDigits {cs : List Char} (h : AllDigits cs.tail) :
    isDateTime cs = false := by
  have hdate : readDate cs = none := by
    unfold readDate
    split
    next => exact absurd rfl (h.ne_of_mem (c := '-') (by simp) rfl)
    next => rfl
  have htime : readTime cs = none := by
    unfold readTime
    split
    next => exact absurd rfl (h.ne_of_mem (c := ':') (by simp) rfl)
    next => rfl
  rw [isDateTime, hdate, htime]
  rfl

theorem AllDigits.tail {cs : List Char} (h : AllDigits cs) : AllDigits cs.tail :=
  fun c hc => h c (List.mem_of_mem_tail hc)

theorem toList_toString_int (n : Int) :
    (toString n).toList =
      if 0 ≤ n then Nat.toDigits 10 n.toNat else '-' :: Nat.toDigits 10 (-n).toNat := by
  rw [Int.toString_eq_repr, Int.repr_eq_if]
  split
  · rw [Nat.toList_repr]
  · rw [String.toList_append, Nat.toList_repr]
    rfl

/-- The written form of a number is read as that number, as far as integers go. -/
theorem ofScalar?_toString {n : Int}
    (hn : Int64.minValue.toInt ≤ n ∧ n ≤ Int64.maxValue.toInt) :
    Item.ofScalar? (toString n).toList = some (.integer n) := by
  have hrange : inRange n = some (.integer n) := if_pos hn
  rw [toList_toString_int]
  split
  case isTrue hpos =>
    have hdigits := allDigits_toDigits n.toNat
    have hdate := isDateTime_of_allDigits hdigits.tail
    rw [Item.ofScalar?, if_neg (hdigits.ne_cons rfl _), if_neg (hdigits.ne_cons rfl _), hdate,
      if_neg Bool.false_ne_true, ofInteger?_toDigits, Int.toNat_of_nonneg hpos, hrange,
      Option.some_or]
  case isFalse hneg =>
    have hdate : isDateTime ('-' :: Nat.toDigits 10 (-n).toNat) = false :=
      isDateTime_of_allDigits (allDigits_toDigits (-n).toNat)
    rw [Item.ofScalar?, if_neg (by simp), if_neg (by simp), hdate, if_neg Bool.false_ne_true,
      ofInteger?_neg_toDigits, Int.toNat_of_nonneg (by omega), Int.neg_neg, hrange,
      Option.some_or]

end Deferred.Toml
