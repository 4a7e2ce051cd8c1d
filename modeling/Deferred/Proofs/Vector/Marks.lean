import Deferred.Proofs.Vector.Operations

/-!
# Marks of cells

A claim adds one mark to a cell for every way in which the claimed vector leads to it, and no other
operation adds or takes away a mark. So the marks of all cells tell the history of claims, up to the
greatest count, and a vector is shared just when the history has a cell that it is or reads from.
-/
set_option autoImplicit false

namespace Deferred

variable {k : Kind}

namespace Marks

/-- The greatest count, which all further claims leave as it is. -/
def greatest : Nat := 4294967295

theorem any_eq_true_iff (m : Marks) : m.any = true ↔ m.count.toNat ≠ 0 := by
  rw [any, decide_eq_true_iff]
  exact not_congr (UInt32.toNat_inj (a := m.count) (b := 0)).symm

theorem toNat_count_add (m : Marks) :
    m.add.count.toNat = min (m.count.toNat + 1) greatest := by
  have hgreatest : greatest = 4294967295 := rfl
  have hlt : m.count.toNat < 4294967296 := m.count.toNat_lt
  have hadd : (m.count + 1).toNat = (m.count.toNat + 1) % 4294967296 := UInt32.toNat_add m.count 1
  rw [add]
  split
  case isTrue h =>
    rw [h] at hadd
    have hzero : (0 : UInt32).toNat = 0 := rfl
    omega
  case isFalse h =>
    have hne : (m.count + 1).toNat ≠ 0 := fun h0 => h (UInt32.toNat_inj.mp h0)
    change (m.count + 1).toNat = _
    omega

end Marks

namespace Store

theorem cell_of_le {st : Store} {a : Address k} (h : (st.row k).size ≤ a.index) :
    st.cell a = Cell.vacant := by
  simp [cell, Array.getElem?_eq_none h]

/-- No cell has gained or lost a mark. -/
def SameMarks (st st' : Store) : Prop :=
  ∀ a : Σ k, Address k, (st'.cell a.2).marks = (st.cell a.2).marks

theorem SameMarks.refl (st : Store) : st.SameMarks st := fun _ => rfl

theorem sameMarks_alloc (st : Store) (contents : Contents k.Elem)
    (attributes : Option Attributes) : st.SameMarks (st.alloc contents attributes).2 := by
  rintro ⟨j, b⟩
  change ((st.alloc contents attributes).2.cell b).marks = (st.cell b).marks
  by_cases hb : b.index < (st.row j).size
  · rw [cell_alloc_of_lt st contents attributes hb]
  · -- Behind the old cells there is the new one at most, and it has no marks either.
    rw [cell_of_le (Nat.le_of_not_lt hb)]
    by_cases hj : j = k
    · subst hj
      have hsize := size_row_alloc_self st contents attributes
      by_cases hnew : b.index = (st.row j).size
      · have hself : b = (st.alloc contents attributes).1 := congrArg Address.mk hnew
        rw [hself, cell_alloc_self]
        rfl
      · rw [cell_of_le (by omega)]
    · have hrow : ((st.alloc contents attributes).2.row j) = st.row j :=
        row_withRow_of_ne st _ hj
      rw [cell_of_le (by rw [hrow]; omega)]

theorem sameMarks_write (st : Store) (a : Address k) (i : Nat) (x : k.Elem) :
    st.SameMarks (st.write a i x) := by
  intro b
  by_cases h : b = ⟨k, a⟩
  · subst h
    change ((st.write a i x).cell a).marks = (st.cell a).marks
    by_cases ha : a.index < (st.row k).size
    · rw [write, cell_modify_self st _ ha]
    · have hsize := size_row_modify st a
        (fun c => { c with contents := c.contents.write i x }) k
      rw [write, cell_of_le (by omega), cell_of_le (by omega)]
  · rw [write, cell_modify_of_ne st a _ h]

def markAll (st : Store) (as : List (Σ k, Address k)) : Store :=
  as.foldl (fun st a => st.mark a.2) st

theorem markAll_append (st : Store) (as bs : List (Σ k, Address k)) :
    st.markAll (as ++ bs) = (st.markAll as).markAll bs := List.foldl_append

/-- Every cell has as many marks as `history` has claims on it, up to the greatest count. -/
def Records (st : Store) (history : List (Σ k, Address k)) : Prop :=
  ∀ a : Σ k, Address k, (st.cell a.2).marks.count.toNat = min (history.count a) Marks.greatest

namespace Records

variable {st : Store} {history : List (Σ k, Address k)}

theorem empty : Store.empty.Records [] := by
  intro a
  rw [cell_of_le (by rcases a with ⟨j, b⟩; cases j <;> exact Nat.zero_le _)]
  rfl

theorem of_sameMarks {st' : Store} (h : st.Records history) (hst : st.SameMarks st') :
    st'.Records history := by
  intro a
  rw [hst a]
  exact h a

theorem mark (h : st.Records history) {a : Σ k, Address k}
    (ha : a.2.index < (st.row a.1).size) : (st.mark a.2).Records (history ++ [a]) := by
  intro b
  have hcount := h b
  by_cases hba : b = a
  · subst hba
    rw [Store.mark, cell_modify_self st _ ha, Marks.toNat_count_add, List.count_append,
      List.count_singleton_self]
    omega
  · rw [Store.mark, cell_modify_of_ne st a.2 _ hba, List.count_append,
      List.count_singleton, if_neg (by simpa using Ne.symm hba)]
    exact hcount

theorem markAll (h : st.Records history) {as : List (Σ k, Address k)}
    (has : ∀ a ∈ as, a.2.index < (st.row a.1).size) :
    (st.markAll as).Records (history ++ as) := by
  induction as generalizing st history with
  | nil => rwa [List.append_nil]
  | cons a as ih =>
    have hmark := h.mark (has a List.mem_cons_self)
    have hrest : ∀ b ∈ as, b.2.index < ((st.mark a.2).row b.1).size := by
      intro b hb
      rw [Store.mark, size_row_modify]
      exact has b (List.mem_cons_of_mem a hb)
    have hall := ih hmark hrest
    rwa [List.append_assoc] at hall

/-- A cell has a mark if and only if some claim reached it, however many there were. -/
theorem marked_iff (h : st.Records history) (a : Σ k, Address k) :
    (st.cell a.2).marks.any = true ↔ a ∈ history := by
  have hgreatest : 0 < Marks.greatest := by decide
  rw [Marks.any_eq_true_iff, h a, ← List.count_pos_iff]
  omega

end Records

end Store

namespace Vec

/-- A vector reads from the cell that it is and from those that the vectors right behind it read
from. -/
inductive ReadsFrom : {k : Kind} → Vec k → (Σ k, Address k) → Prop where
  | dense {k : Kind} (a : Address k) : ReadsFrom (dense a) ⟨k, a⟩
  | exclusion {k : Kind} {base : Vec k} {skip n : Nat} {a : Σ k, Address k} :
    ReadsFrom base a → ReadsFrom (exclusion base skip n) a
  | subset_base {k : Kind} {base : Vec k} {n : Nat} {index : Vec .int} {a : Σ k, Address k} :
    ReadsFrom base a → ReadsFrom (subset base n index) a
  | subset_index {k : Kind} {base : Vec k} {n : Nat} {index : Vec .int} {a : Σ k, Address k} :
    ReadsFrom index a → ReadsFrom (subset base n index) a
  | coercion {s t : Kind} {source : Vec s} {a : Σ k, Address k} :
    ReadsFrom source a → ReadsFrom (coercion (t := t) source) a

theorem mem_addresses_iff {v : Vec k} {a : Σ k, Address k} : a ∈ v.addresses ↔ v.ReadsFrom a := by
  constructor
  · intro h
    induction v with
    | dense b =>
      obtain rfl := List.mem_singleton.mp h
      exact .dense b
    | sequence p n => exact absurd h List.not_mem_nil
    | exclusion base skip n ih => exact .exclusion (ih h)
    | subset base n index ihb ihx =>
      rcases List.mem_append.mp h with h | h
      · exact .subset_base (ihb h)
      · exact .subset_index (ihx h)
    | coercion source ih => exact .coercion (ih h)
  · intro h
    induction h with
    | dense b => exact List.mem_singleton.mpr rfl
    | exclusion _ ih => exact ih
    | subset_base _ ih => exact List.mem_append_left _ ih
    | subset_index _ ih => exact List.mem_append_right _ ih
    | coercion _ ih => exact ih

theorem isShared_iff (v : Vec k) (st : Store) :
    v.isShared st = true ↔ ∃ a ∈ v.addresses, (st.cell a.2).marks.any = true := by
  induction v with
  | dense a => simp [isShared, addresses]
  | sequence p n => simp [isShared, addresses]
  | exclusion base skip n ih => exact ih
  | subset base n index ihb ihx =>
    simp only [isShared, Bool.or_eq_true, ihb, ihx, addresses, List.mem_append, or_and_right,
      exists_or]
  | coercion source ih => exact ih

theorem claim_eq_markAll (v : Vec k) (st : Store) : v.claim st = st.markAll v.addresses := by
  induction v generalizing st with
  | dense a => rfl
  | sequence p n => rfl
  | exclusion base skip n ih => exact ih st
  | subset base n index ihb ihx =>
    rw [claim, ihb, ihx, addresses, Store.markAll_append]
  | coercion source ih => exact ih st

theorem Sound.lt_size_of_mem_addresses {v : Vec k} {st : Store} (h : v.Sound st) :
    ∀ a ∈ v.addresses, a.2.index < (st.row a.1).size := by
  induction v with
  | dense a =>
    intro b hb
    obtain rfl := List.mem_singleton.mp hb
    exact h
  | sequence p n => exact fun a ha => absurd ha List.not_mem_nil
  | exclusion base skip n ih => exact ih h.1
  | subset base n index ihb ihx =>
    intro a ha
    rcases List.mem_append.mp ha with ha | ha
    · exact ihb h.1 a ha
    · exact ihx h.2.1 a ha
  | coercion source ih => exact ih h

end Vec

namespace Store.Records

variable {st : Store} {history : List (Σ k, Address k)}

theorem claim (h : st.Records history) {v : Vec k} (hv : v.Sound st) :
    (v.claim st).Records (history ++ v.addresses) := by
  rw [Vec.claim_eq_markAll]
  exact h.markAll hv.lt_size_of_mem_addresses

/-- A vector is shared if and only if some claim reached a cell that it reads from. -/
theorem isShared_iff (h : st.Records history) (v : Vec k) :
    v.isShared st = true ↔ ∃ a, v.ReadsFrom a ∧ a ∈ history := by
  rw [Vec.isShared_iff]
  exact exists_congr fun a => and_congr Vec.mem_addresses_iff (h.marked_iff a)

end Store.Records

namespace Vec

theorem isShared_eq_of_sameMarks (v : Vec k) {st st' : Store} (h : st.SameMarks st') :
    v.isShared st' = v.isShared st := by
  rw [Bool.eq_iff_iff, isShared_iff, isShared_iff]
  exact exists_congr fun a => and_congr_right fun _ => by rw [h a]

/-- What an operation made is a new cell. -/
def Placed (st : Store) (made : Vec k × Store) : Prop :=
  ∃ contents attributes, made = place contents attributes st

theorem Placed.sameMarks {st : Store} {made : Vec k × Store} (h : Placed st made) :
    st.SameMarks made.2 := by
  obtain ⟨contents, attributes, rfl⟩ := h
  exact st.sameMarks_alloc contents attributes

theorem Placed.unshared {st : Store} {made : Vec k × Store} (h : Placed st made) :
    made.1.isShared made.2 = false := by
  obtain ⟨contents, attributes, rfl⟩ := h
  change ((st.alloc contents attributes).2.cell (st.alloc contents attributes).1).marks.any = false
  rw [Store.cell_alloc_self]
  rfl

theorem placed_materialize {v : Vec k} {st : Store} (h : v.encoding st ≠ .block) :
    Placed st (v.materialize st) := by
  rw [materialize, if_neg h]
  exact ⟨_, _, rfl⟩

theorem placed_coerce {s t : Kind} {v : Vec s} {st : Store} (h : v.encoding st = .scalar)
    (hst : s ≠ t) : Placed st (v.coerce t st) := by
  rw [coerce.eq_def, dif_neg hst]
  cases v with
  | dense a =>
    cases hc : (st.cell a).contents with
    | scalar x => exact ⟨.scalar (Kind.convert s t x), (st.cell a).attributes, by simp only [hc]⟩
    | block xs => simp [encoding, hc, Contents.isBlock] at h
  | _ => simp [encoding] at h

theorem sameMarks_coerce {s : Kind} (v : Vec s) (t : Kind) (st : Store) :
    st.SameMarks (v.coerce t st).2 := by
  rw [coerce.eq_def]
  by_cases hst : s = t
  · rw [dif_pos hst]
    exact .refl st
  · rw [dif_neg hst]
    cases v with
    | dense a =>
      cases hc : (st.cell a).contents with
      | scalar x =>
        simp only [hc]
        exact st.sameMarks_alloc _ _
      | block xs =>
        simp only [hc]
        exact .refl st
    | _ => exact .refl st

theorem sameMarks_materialize (v : Vec k) (st : Store) : st.SameMarks (v.materialize st).2 := by
  by_cases h : v.encoding st = .block
  · rw [materialize, if_pos h]
    exact .refl st
  · exact (placed_materialize h).sameMarks

theorem sameMarks_progression {p : Progression k} {stop : k.Elem} {st : Store}
    {made : Vec k × Store} (h : Vec.progression p stop st = .ok made) : st.SameMarks made.2 := by
  rw [Vec.progression] at h
  split at h
  · contradiction
  · obtain rfl := Except.ok.inj h
    split
    · exact st.sameMarks_alloc _ _
    · exact .refl st

/-- A block is written in place only while nobody has claimed it, so what comes back is unshared
either way. -/
theorem unshared_set {v : Vec k} {i : Nat} {x : k.Elem} {sole : Bool} {st : Store}
    {made : Vec k × Store} (h : v.set i x sole st = some made) :
    st.SameMarks made.2 ∧ made.1.isShared made.2 = false := by
  have hi : i < v.size st := by
    by_cases hi : i < v.size st
    · exact hi
    · rw [set_of_le (by omega)] at h
      contradiction
  rcases set_of_lt hi x sole with hs | ⟨a, rfl, _, _, hunshared, hs⟩
  · obtain rfl : _ = made := Option.some.inj (hs.symm.trans h)
    have hplaced : Placed st
        (place (.block ((v.elements st).set i x).toArray) (v.attributes st) st) := ⟨_, _, rfl⟩
    exact ⟨hplaced.sameMarks, hplaced.unshared⟩
  · obtain rfl : _ = made := Option.some.inj (hs.symm.trans h)
    have hmarks := st.sameMarks_write a i x
    exact ⟨hmarks, (isShared_eq_of_sameMarks _ hmarks).trans hunshared⟩

/-- Whatever an operation copies out of a vector starts without an owner. -/
structure CopiesUnshared (v : Vec k) (st : Store) : Prop where
  copy : (v.copy st).1.isShared (v.copy st).2 = false
  withAttributes (attributes : Attributes) :
    (v.withAttributes attributes st).1.isShared (v.withAttributes attributes st).2 = false
  materialize : v.encoding st ≠ .block →
    (v.materialize st).1.isShared (v.materialize st).2 = false
  coerce (t : Kind) : v.encoding st = .scalar → k ≠ t →
    (v.coerce t st).1.isShared (v.coerce t st).2 = false
  set (i : Nat) (x : k.Elem) (sole : Bool) (made : Vec k × Store) :
    v.set i x sole st = some made → made.1.isShared made.2 = false

theorem copiesUnshared (v : Vec k) (st : Store) : v.CopiesUnshared st where
  copy := Placed.unshared ⟨_, _, rfl⟩
  withAttributes _ := Placed.unshared ⟨_, _, rfl⟩
  materialize h := (placed_materialize h).unshared
  coerce _ h hkt := (placed_coerce h hkt).unshared
  set _ _ _ _ h := (unshared_set h).2

end Vec

end Deferred
