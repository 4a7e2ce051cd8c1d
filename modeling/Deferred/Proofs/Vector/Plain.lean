import Deferred.Vector.View

/-!
# Plain vectors

A plain vector is a list of elements with attributes and shares nothing. Every operation on handles
has a plain counterpart, and `Vec.plain` is the plain vector that a handle stands for in a store.
-/
set_option autoImplicit false

namespace Deferred

structure Plain (k : Kind) where
  elements : List k.Elem
  attributes : Option Attributes

namespace Plain

variable {k : Kind}

def ofList (xs : List k.Elem) : Plain k := ⟨xs, none⟩

def progression (p : Progression k) (n : Nat) : Plain k :=
  ofList (if n = 1 then [p.start] else (List.range n).map p.term)

def exclude (p : Plain k) (i : Nat) : Plain k := ofList (p.elements.eraseIdx i)

def pick (xs : List k.Elem) (j : Int32) : k.Elem :=
  if j.toInt ≤ 0 then k.missing else xs.getD (j.toInt.toNat - 1) k.missing

def gather (p : Plain k) (index : Plain .int) : Plain k :=
  ofList (index.elements.map (pick p.elements))

def coerce (p : Plain k) (t : Kind) : Plain t := ⟨p.elements.map (Kind.convert k t), p.attributes⟩

def withAttributes (p : Plain k) (attributes : Attributes) : Plain k :=
  ⟨p.elements, attributes.nonEmpty?⟩

def set (p : Plain k) (i : Nat) (x : k.Elem) : Plain k := ⟨p.elements.set i x, p.attributes⟩

end Plain

def Contents.toList {α : Type} : Contents α → List α
  | scalar x => [x]
  | block xs => xs.toList

def Cell.plain {k : Kind} (c : Cell k.Elem) : Plain k := ⟨c.contents.toList, c.attributes⟩

namespace Vec

variable {k : Kind}

/-- The plain vector that a handle stands for. -/
def plain {k : Kind} : Vec k → Store → Plain k
  | dense a, st => (st.cell a).plain
  | sequence p n, _ => Plain.ofList ((List.range n).map p.term)
  | exclusion base skip _, st => (base.plain st).exclude skip
  | subset base _ index, st => (base.plain st).gather (index.plain st)
  | coercion (t := t) source, st => (source.plain st).coerce t

/-- Addresses are good, and every size kept in a view is that of the vector behind it. -/
def Sound {k : Kind} : Vec k → Store → Prop
  | dense (k := k) a, st => a.index < (st.row k).size
  | sequence _ _, _ => True
  | exclusion base skip n, st => base.Sound st ∧ skip < base.size st ∧ n + 1 = base.size st
  | subset base n index, st => base.Sound st ∧ index.Sound st ∧ n = base.size st
  | coercion source, st => source.Sound st

/-- The vector itself and all vectors behind it, at any depth. -/
def layers {k : Kind} : Vec k → List (Σ k, Vec k)
  | dense a => [⟨_, dense a⟩]
  | sequence p n => [⟨_, sequence p n⟩]
  | exclusion base skip n => ⟨_, exclusion base skip n⟩ :: base.layers
  | subset base n index => ⟨_, subset base n index⟩ :: (base.layers ++ index.layers)
  | coercion (t := t) source => ⟨t, coercion source⟩ :: source.layers

/-- A handle can be told from a plain vector by none of its readings. A read gives an element just
where the plain vector has one. -/
structure Reads (v : Vec k) (st : Store) (p : Plain k) : Prop where
  size_eq : v.size st = p.elements.length
  element_eq (i : Nat) : v.element? st i = p.elements[i]?
  attributes_eq : v.attributes st = p.attributes

theorem reads_dense (a : Address k) (st : Store) : (dense a).Reads st (st.cell a).plain := by
  rcases h : st.cell a with ⟨contents, attributes, marks⟩
  refine ⟨?_, fun i => ?_, ?_⟩
  · cases contents <;> simp [size, h, Cell.plain, Contents.size, Contents.toList]
  · cases contents with
    | scalar x =>
      cases i <;> simp [element?, read, h, Cell.plain, Contents.read, Contents.toList,
        Except.toOption]
    | block xs =>
      by_cases hi : i < xs.size
      · simp [element?, read, h, Cell.plain, Contents.read, Contents.toList, hi, Except.toOption]
      · simp [element?, read, h, Cell.plain, Contents.read, Contents.toList, hi, Except.toOption]
  · simp [Vec.attributes, h, Cell.plain]

theorem reads_sequence (p : Progression k) (n : Nat) (st : Store) :
    (sequence p n).Reads st (Plain.ofList ((List.range n).map p.term)) := by
  refine ⟨by simp [size, Plain.ofList], fun i => ?_, rfl⟩
  by_cases hi : i < n
  · simp [element?, read, Plain.ofList, hi, Except.toOption]
  · simp [element?, read, Plain.ofList, hi, Except.toOption]

theorem reads_exclusion {base : Vec k} {st : Store} {p : Plain k} {skip n : Nat}
    (h : base.Reads st p) (hs : skip < base.size st) (hn : n + 1 = base.size st) :
    (exclusion base skip n).Reads st (p.exclude skip) := by
  have hlen := h.size_eq
  refine ⟨?_, fun i => ?_, rfl⟩
  · simp only [size, Plain.exclude, Plain.ofList, List.length_eraseIdx]
    rw [if_pos (by omega)]
    omega
  · simp only [Plain.exclude, Plain.ofList, List.getElem?_eraseIdx]
    by_cases hi : i < n
    · have hr : (exclusion base skip n).element? st i =
          base.element? st (if i < skip then i else i + 1) := by
        simp [element?, read, hi]
      rw [hr, h.element_eq]
      split <;> rfl
    · have hr : (exclusion base skip n).element? st i = none := by
        simp [element?, read, hi, Except.toOption]
      rw [hr, if_neg (by omega), List.getElem?_eq_none (by omega)]

theorem read_subset_of_ok {base : Vec k} {index : Vec .int} {st : Store} (n : Nat) {i : Nat}
    {j : Int32} (h : index.read st i = .ok j) :
    (subset base n index).read st i =
      if j.toInt ≤ 0 ∨ n < j.toInt.toNat then .ok k.missing
      else base.read st (j.toInt.toNat - 1) := by
  simp only [read, h]

theorem reads_subset {base : Vec k} {index : Vec .int} {st : Store} {p : Plain k}
    {q : Plain .int} {n : Nat} (hb : base.Reads st p) (hx : index.Reads st q)
    (hn : n = base.size st) : (subset base n index).Reads st (p.gather q) := by
  refine ⟨?_, fun i => ?_, rfl⟩
  · simp [size, Plain.gather, Plain.ofList, hx.size_eq]
  · simp only [Plain.gather, Plain.ofList, List.getElem?_map, ← hx.element_eq i]
    cases hj : index.read st i with
    | error e => simp [element?, read, hj, Except.toOption]
    | ok j =>
      have he : index.element? st i = some j := by simp [element?, hj, Except.toOption]
      have hlen := hb.size_eq
      rw [he, Option.map_some, element?, read_subset_of_ok n hj, Plain.pick]
      by_cases hj0 : j.toInt ≤ 0
      · rw [if_pos (Or.inl hj0), if_pos hj0]
        rfl
      · rw [if_neg hj0, List.getD_eq_getElem?_getD]
        by_cases hjn : n < j.toInt.toNat
        · rw [if_pos (Or.inr hjn), List.getElem?_eq_none (by omega)]
          rfl
        · have hin : j.toInt.toNat - 1 < p.elements.length := by omega
          have hbe : (base.read st (j.toInt.toNat - 1)).toOption = _ := hb.element_eq _
          rw [if_neg (by simp only [hj0, hjn, or_self, not_false_eq_true]), hbe,
            List.getElem?_eq_getElem hin, Option.getD_some]

theorem reads_coercion {source : Vec k} {st : Store} {p : Plain k} {t : Kind}
    (h : source.Reads st p) : (coercion source : Vec t).Reads st (p.coerce t) := by
  refine ⟨?_, fun i => ?_, ?_⟩
  · simp [size, Plain.coerce, h.size_eq]
  · have hi := h.element_eq i
    simp only [element?] at hi
    simp only [element?, read, Plain.coerce, List.getElem?_map, ← hi]
    cases source.read st i <;> rfl
  · simp [Vec.attributes, Plain.coerce, h.attributes_eq]

/-- At any nesting, a sound vector reads as the plain vector it stands for. -/
theorem Sound.reads {v : Vec k} {st : Store} (h : v.Sound st) : v.Reads st (v.plain st) := by
  induction v with
  | dense a => exact reads_dense a st
  | sequence p n => exact reads_sequence p n st
  | exclusion base skip n ih =>
    obtain ⟨hb, hs, hn⟩ := h
    exact reads_exclusion (ih hb) hs hn
  | subset base n index ihb ihx =>
    obtain ⟨hb, hx, hn⟩ := h
    exact reads_subset (ihb hb) (ihx hx) hn
  | coercion source ih => exact reads_coercion (ih h)

theorem forall_layers {P : {k : Kind} → Vec k → Prop}
    (hexclusion : ∀ {k : Kind} {base : Vec k} {skip n : Nat},
      P (exclusion base skip n) → P base)
    (hsubset : ∀ {k : Kind} {base : Vec k} {n : Nat} {index : Vec .int},
      P (subset base n index) → P base ∧ P index)
    (hcoercion : ∀ {s t : Kind} {source : Vec s}, P (coercion source : Vec t) → P source)
    {v : Vec k} (h : P v) : ∀ w ∈ v.layers, P w.2 := by
  intro w hw
  induction v with
  | dense a =>
    obtain rfl := List.mem_singleton.mp hw
    exact h
  | sequence p n =>
    obtain rfl := List.mem_singleton.mp hw
    exact h
  | exclusion base skip n ih =>
    rcases List.mem_cons.mp hw with rfl | hw
    · exact h
    · exact ih (hexclusion h) hw
  | subset base n index ihb ihx =>
    obtain ⟨hb, hx⟩ := hsubset h
    rcases List.mem_cons.mp hw with rfl | hw
    · exact h
    · rcases List.mem_append.mp hw with hw | hw
      · exact ihb hb hw
      · exact ihx hx hw
  | coercion source ih =>
    rcases List.mem_cons.mp hw with rfl | hw
    · exact h
    · exact ih (hcoercion h) hw

theorem Sound.of_mem_layers {v : Vec k} {st : Store} (h : v.Sound st) {w : Σ k, Vec k}
    (hw : w ∈ v.layers) : w.2.Sound st :=
  forall_layers (P := fun v => v.Sound st) (fun h => h.1) (fun h => ⟨h.1, h.2.1⟩) (fun h => h) h
    w hw

theorem addresses_subset_of_mem_layers {v : Vec k} {w : Σ k, Vec k} (hw : w ∈ v.layers) :
    w.2.addresses ⊆ v.addresses :=
  forall_layers (P := fun u => u.addresses ⊆ v.addresses) (fun h => h)
    (fun h => List.append_subset.mp h) (fun h => h) (List.Subset.refl _) w hw

theorem filterMap_getElem? {α : Type} (xs : List α) :
    (List.range xs.length).filterMap (xs[·]?) = xs := by
  induction xs with
  | nil => rfl
  | cons x xs ih =>
    rw [List.length_cons, List.range_succ_eq_map, List.filterMap_cons, List.filterMap_map]
    simpa [Function.comp_def] using ih

theorem Reads.elements_eq {v : Vec k} {st : Store} {p : Plain k} (h : v.Reads st p) :
    v.elements st = p.elements := by
  have he : v.element? st = fun i => p.elements[i]? := funext h.element_eq
  rw [elements, h.size_eq, he, filterMap_getElem?]

theorem Reads.read_eq_ok_iff {v : Vec k} {st : Store} {p : Plain k} (h : v.Reads st p) (i : Nat)
    (x : k.Elem) : v.read st i = .ok x ↔ p.elements[i]? = some x := by
  rw [← h.element_eq i, element?]
  cases v.read st i <;> simp [Except.toOption]

theorem Reads.read_fails_iff {v : Vec k} {st : Store} {p : Plain k} (h : v.Reads st p) (i : Nat) :
    (∃ e, v.read st i = .error e) ↔ v.size st ≤ i := by
  rw [h.size_eq, ← List.getElem?_eq_none_iff, ← h.element_eq i, element?]
  cases v.read st i <;> simp [Except.toOption]

theorem Sound.elements_eq {v : Vec k} {st : Store} (h : v.Sound st) :
    v.elements st = (v.plain st).elements := h.reads.elements_eq

theorem Sound.attributes_eq {v : Vec k} {st : Store} (h : v.Sound st) :
    v.attributes st = (v.plain st).attributes := h.reads.attributes_eq

theorem Sound.size_eq {v : Vec k} {st : Store} (h : v.Sound st) :
    v.size st = (v.plain st).elements.length := h.reads.size_eq

theorem Sound.plain_eq {v : Vec k} {st : Store} (h : v.Sound st) :
    v.plain st = ⟨v.elements st, v.attributes st⟩ := by
  rw [h.elements_eq, h.attributes_eq]

end Vec

end Deferred
