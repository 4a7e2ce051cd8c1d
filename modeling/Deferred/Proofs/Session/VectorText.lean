import Mathlib.Data.List.TakeWhile
import Deferred.Proofs.Session.Views

set_option autoImplicit false

namespace Deferred

section Separated

variable {c : Char} {rest a b : List Char} {as bs : List (List Char)}

theorem takeWhile_intercalate (ha : c ∉ a) :
    ((c :: rest).intercalate (a :: as)).takeWhile (· ≠ c) = a := by
  have hword : ∀ d ∈ a, decide (d ≠ c) = true := by
    intro d hd
    exact decide_eq_true (ne_of_mem_of_not_mem hd ha)
  cases as with
  | nil => rw [List.intercalate_singleton, List.takeWhile_eq_self_iff.2 hword]
  | cons a' as =>
    rw [List.intercalate_cons_cons, List.append_assoc, List.takeWhile_append_of_pos hword]
    simp

/-- Words in which the first character of the separator does not occur are told apart. -/
theorem eq_of_intercalate_eq (ha : ∀ w ∈ a :: as, c ∉ w) (hb : ∀ w ∈ b :: bs, c ∉ w)
    (h : (c :: rest).intercalate (a :: as) = (c :: rest).intercalate (b :: bs)) :
    a :: as = b :: bs := by
  induction as generalizing a b bs with
  | nil =>
    obtain rfl : a = b := by
      rw [← takeWhile_intercalate (ha a List.mem_cons_self), h,
        takeWhile_intercalate (hb b List.mem_cons_self)]
    cases bs with
    | nil => rfl
    | cons b' bs => simp at h
  | cons a' as ih =>
    obtain rfl : a = b := by
      rw [← takeWhile_intercalate (ha a List.mem_cons_self), h,
        takeWhile_intercalate (hb b List.mem_cons_self)]
    cases bs with
    | nil => simp at h
    | cons b' bs =>
      rw [List.intercalate_cons_cons, List.intercalate_cons_cons] at h
      rw [ih (List.forall_mem_cons.1 ha).2 (List.forall_mem_cons.1 hb).2
        (List.append_cancel_left h)]

end Separated

/-- Has none of the marks with which the forms are told apart and elements are parted. -/
def isUnmarked (s : String) : Bool := s.toList.all (· ∉ ['(', ','])

theorem isUnmarked_append (s t : String) :
    isUnmarked (s ++ t) = (isUnmarked s && isUnmarked t) := by
  rw [isUnmarked, String.toList_append, List.all_append]
  rfl

theorem notMem_of_isUnmarked {s : String} (h : isUnmarked s = true) {c : Char}
    (hc : c ∈ ['(', ',']) : c ∉ s.toList := by
  intro hmem
  exact of_decide_eq_true (List.all_eq_true.1 h c hmem) hc

namespace Kind

theorem isUnmarked_natRepr (n : Nat) : isUnmarked n.repr = true := by
  rw [isUnmarked, Nat.toList_repr, List.all_eq_true]
  intro c hc
  have hdigit : c.isDigit = true := Nat.isDigit_of_mem_toDigits (by decide) (by decide) hc
  refine decide_eq_true fun hmark => ?_
  rcases List.mem_pair.1 hmark with rfl | rfl <;> contradiction

theorem isUnmarked_intText (x : Int32) : isUnmarked (intText x) = true := by
  unfold intText
  split
  · decide
  · rw [isUnmarked_append, Int.toString_eq_repr, Int.repr_eq_if]
    split
    · rw [isUnmarked_natRepr]
      decide
    · rw [isUnmarked_append, isUnmarked_natRepr]
      decide

theorem append_unit_ne_missing (s : String) : s ++ "L" ≠ "NA" := by
  intro h
  have hlast : (s ++ "L").toList.getLast? = "NA".toList.getLast? := by rw [h]
  simp at hlast

theorem natRepr_inj {m n : Nat} (h : m.repr = n.repr) : m = n := by
  have hdigits : Nat.toDigits 10 m = Nat.toDigits 10 n := by
    rw [← Nat.toList_repr, ← Nat.toList_repr, h]
  calc
    m = Nat.ofDigitChars 10 (Nat.toDigits 10 m) 0 := Nat.ofDigitChars_ten_toDigits.symm
    _ = Nat.ofDigitChars 10 (Nat.toDigits 10 n) 0 := by rw [hdigits]
    _ = n := Nat.ofDigitChars_ten_toDigits

theorem natRepr_ne_neg (n : Nat) (s : String) : n.repr ≠ "-" ++ s := by
  intro h
  have hmem : '-' ∈ n.repr.toList := by simp [h]
  rw [Nat.toList_repr] at hmem
  have hdigit : '-'.isDigit = true := Nat.isDigit_of_mem_toDigits (by decide) (by decide) hmem
  contradiction

theorem intRepr_inj {m n : Int} (h : m.repr = n.repr) : m = n := by
  rw [Int.repr_eq_if, Int.repr_eq_if] at h
  split at h <;> split at h
  · have habs := natRepr_inj h
    omega
  · exact absurd h (natRepr_ne_neg _ _)
  · exact absurd h.symm (natRepr_ne_neg _ _)
  · have habs := natRepr_inj ((String.append_right_inj _).1 h)
    omega

theorem intText_inj {x y : Int32} : intText x = intText y ↔ x = y := by
  refine ⟨fun h => ?_, congrArg intText⟩
  unfold intText at h
  by_cases hx : x = missingInt <;> by_cases hy : y = missingInt
  · rw [hx, hy]
  · rw [if_pos hx, if_neg hy] at h
    exact absurd h.symm (append_unit_ne_missing _)
  · rw [if_neg hx, if_pos hy] at h
    exact absurd h (append_unit_ne_missing _)
  · rw [if_neg hx, if_neg hy, String.append_left_inj, Int.toString_eq_repr,
      Int.toString_eq_repr] at h
    exact Int32.toInt_inj.1 (intRepr_inj h)

theorem logicalText_inj {x y : Logical} : logicalText x = logicalText y ↔ x = y := by
  cases x <;> cases y <;> decide

variable {k : Kind}

theorem isUnmarked_text (hk : k ≠ .double) (x : k.Elem) : isUnmarked (k.text x) = true := by
  cases k with
  | int => exact isUnmarked_intText x
  | double => exact absurd rfl hk
  | logical => cases x <;> decide

theorem text_inj (hk : k ≠ .double) {x y : k.Elem} : k.text x = k.text y ↔ x = y := by
  cases k with
  | int => exact intText_inj
  | double => exact absurd rfl hk
  | logical => exact logicalText_inj

theorem unseparated_texts (hk : k ≠ .double) (xs : List k.Elem) :
    ∀ w ∈ (xs.map k.text).map String.toList, ',' ∉ w := by
  simp only [List.mem_map, exists_exists_and_eq_and, forall_exists_index, and_imp,
    forall_apply_eq_imp_iff₂]
  exact fun x _ => notMem_of_isUnmarked (isUnmarked_text hk x) (by simp)

/-- Only the form of a single element has no parenthesis. -/
theorem mem_listText_iff (hk : k ≠ .double) (xs : List k.Elem) :
    '(' ∈ (k.listText xs).toList ↔ xs.length ≠ 1 := by
  match xs with
  | [] => simp [listText]
  | [x] =>
    have hunmarked : '(' ∉ (k.text x).toList :=
      notMem_of_isUnmarked (isUnmarked_text hk x) List.mem_cons_self
    simpa [listText] using hunmarked
  | x :: y :: xs => simp [listText]

theorem listText_nil_ne (x y : k.Elem) (xs : List k.Elem) :
    k.listText [] ≠ k.listText (x :: y :: xs) := by
  intro h
  have hhead := congrArg (·.toList.head?) h
  cases k <;> simp [listText, name] at hhead

theorem listText_inj (hk : k ≠ .double) {xs ys : List k.Elem} :
    k.listText xs = k.listText ys ↔ xs = ys := by
  refine ⟨fun h => ?_, congrArg k.listText⟩
  have hsingle : xs.length ≠ 1 ↔ ys.length ≠ 1 := by
    rw [← mem_listText_iff hk, ← mem_listText_iff hk, h]
  match xs, ys with
  | [], [] => rfl
  | [], [y] => simp at hsingle
  | [], y :: y' :: ys => exact absurd h (listText_nil_ne y y' ys)
  | [x], [] => simp at hsingle
  | [x], [y] => rw [(text_inj hk).1 h]
  | [x], y :: y' :: ys => simp at hsingle
  | x :: x' :: xs, [] => exact absurd h.symm (listText_nil_ne x x' xs)
  | x :: x' :: xs, [y] => simp at hsingle
  | x :: x' :: xs, y :: y' :: ys =>
    have hjoined : ", ".intercalate ((x :: x' :: xs).map k.text) =
        ", ".intercalate ((y :: y' :: ys).map k.text) := by
      simpa [listText] using h
    rw [← String.toList_inj, String.toList_intercalate, String.toList_intercalate] at hjoined
    have hwords : ((x :: x' :: xs).map k.text).map String.toList =
        ((y :: y' :: ys).map k.text).map String.toList :=
      eq_of_intercalate_eq (unseparated_texts hk (x :: x' :: xs))
        (unseparated_texts hk (y :: y' :: ys)) hjoined
    rw [List.map_map, List.map_map] at hwords
    refine List.map_injective_iff.2 (fun a b hab => ?_) hwords
    exact (text_inj hk).1 (String.toList_inj.1 hab)

end Kind

theorem Vec.Reads.text_eq_iff {k : Kind} (hk : k ≠ .double) {v w : Vec k} {st st' : Store}
    {p q : Plain k} (hv : v.Reads st p) (hw : w.Reads st' q) :
    v.text st = w.text st' ↔ p.elements = q.elements := by
  rw [text, text, hv.elements_eq, hw.elements_eq, Kind.listText_inj hk]

theorem Vec.Reads.elements_eq_iff {k : Kind} {v w : Vec k} {st st' : Store} {p q : Plain k}
    (hv : v.Reads st p) (hw : w.Reads st' q) :
    p.elements = q.elements ↔ v.size st = w.size st' ∧
      ∀ i < v.size st, ∃ x, v.read st i = .ok x ∧ w.read st' i = .ok x := by
  simp only [hv.read_eq_ok_iff, hw.read_eq_ok_iff, hv.size_eq, hw.size_eq]
  constructor
  · intro h
    rw [h]
    exact ⟨rfl, fun i hi => ⟨q.elements[i], List.getElem?_eq_getElem hi,
      List.getElem?_eq_getElem hi⟩⟩
  · rintro ⟨hlength, hread⟩
    refine List.ext_getElem? fun i => ?_
    by_cases hi : i < p.elements.length
    · obtain ⟨x, hx, hx'⟩ := hread i hi
      rw [hx, hx']
    · rw [List.getElem?_eq_none (by omega), List.getElem?_eq_none (by omega)]

namespace Session

/-- After any commands in two sessions, an integer vector of one and an integer vector of the other
have the same text just if they have the same elements at the same positions, and so do logical
vectors. Neither encoding nor attributes count. -/
theorem run_text_tells_elements (commands commands' : List Command) {k : Kind} (hk : k ≠ .double)
    {v w : Vec k} (hv : (empty.run commands).Live v) (hw : (empty.run commands').Live w) :
    let s := empty.run commands
    let t := empty.run commands'
    s.heap.valueText (.vector v) = t.heap.valueText (.vector w) ↔
      v.size s.store = w.size t.store ∧
        ∀ i < v.size s.store, ∃ x, v.read s.store i = .ok x ∧ w.read t.store i = .ok x := by
  intro s t
  have hreads := hv.sound.reads
  have hreads' := hw.sound.reads
  rw [Heap.valueText, Heap.valueText, ← hreads.elements_eq_iff hreads']
  exact hreads.text_eq_iff hk hreads'

/-- A view and a block with the same text, and a block with one element more. -/
theorem run_text_tells_elements_view_and_block :
    let x := Register.named "x"
    let y := Register.named "y"
    let NA := Kind.missingInt
    let s := empty.run [.vector x .int [-1, 12], .vector y .int [2, 0, 3, 1], .gather x x y,
      .exclude x x 1]
    let t := empty.run [.vector x .int [12, NA, -1], .vector y .int [1, 2, NA, -1]]
    let v : Vec .int := .exclusion (.subset (.dense ⟨0⟩) 2 (.dense ⟨1⟩)) 1 3
    let w : Vec .int := .dense ⟨0⟩
    let u : Vec .int := .dense ⟨1⟩
    Kind.int ≠ .double ∧ s.Live v ∧ t.Live w ∧ t.Live u ∧
      s.heap.valueText (.vector v) = "c(12L, NA, -1L)" ∧
      t.heap.valueText (.vector w) = "c(12L, NA, -1L)" ∧
      (∀ i < v.size s.store, ∃ e, v.read s.store i = .ok e ∧ w.read t.store i = .ok e) ∧
      s.heap.valueText (.vector v) ≠ t.heap.valueText (.vector u) := by
  intro x y NA s t v w u
  have hk : Kind.int ≠ .double := by decide
  have hv : s.Live v := live_of_value? (r := x) rfl
  have hw : t.Live w := live_of_value? (r := x) rfl
  have hu : t.Live u := live_of_value? (r := y) rfl
  have hvtext : s.heap.valueText (.vector v) = "c(12L, NA, -1L)" := by decide +kernel
  have hwtext : t.heap.valueText (.vector w) = "c(12L, NA, -1L)" := by decide +kernel
  have hsame := run_text_tells_elements
    [.vector x .int [-1, 12], .vector y .int [2, 0, 3, 1], .gather x x y, .exclude x x 1]
    [.vector x .int [12, NA, -1], .vector y .int [1, 2, NA, -1]] hk hv hw
  have hother := run_text_tells_elements
    [.vector x .int [-1, 12], .vector y .int [2, 0, 3, 1], .gather x x y, .exclude x x 1]
    [.vector x .int [12, NA, -1], .vector y .int [1, 2, NA, -1]] hk hv hu
  refine ⟨hk, hv, hw, hu, hvtext, hwtext, (hsame.1 (hvtext.trans hwtext.symm)).2, fun h => ?_⟩
  have hsize : v.size s.store = u.size t.store := (hother.1 h).1
  exact absurd hsize (by decide +kernel)

end Session

end Deferred
