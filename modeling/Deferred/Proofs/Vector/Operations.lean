import Deferred.Proofs.Vector.Plain

set_option autoImplicit false

namespace Deferred

variable {k : Kind}

/-- A cell that was handed out still is and reads as before. -/
def Store.Keeps (st st' : Store) (a : Address k) : Prop :=
  a.index < (st.row k).size →
    a.index < (st'.row k).size ∧ (st'.cell a).plain = (st.cell a).plain

namespace Store

theorem keeps_refl (st : Store) (a : Address k) : st.Keeps st a := fun ha => ⟨ha, rfl⟩

theorem Keeps.trans {st st' st'' : Store} {a : Address k} (h : st.Keeps st' a)
    (h' : st'.Keeps st'' a) : st.Keeps st'' a := by
  intro ha
  obtain ⟨ha', hc⟩ := h ha
  obtain ⟨ha'', hc'⟩ := h' ha'
  exact ⟨ha'', hc'.trans hc⟩

theorem size_row_alloc_le (st : Store) (contents : Contents k.Elem)
    (attributes : Option Attributes) (j : Kind) :
    (st.row j).size ≤ ((st.alloc contents attributes).2.row j).size := by
  by_cases hj : j = k
  · subst hj
    rw [size_row_alloc_self]
    omega
  · simp [alloc, row_withRow_of_ne _ _ hj]

theorem keeps_alloc (st : Store) (contents : Contents k.Elem) (attributes : Option Attributes)
    {j : Kind} (a : Address j) : st.Keeps (st.alloc contents attributes).2 a := by
  intro ha
  have hle := size_row_alloc_le st contents attributes j
  exact ⟨by omega, by rw [cell_alloc_of_lt st contents attributes ha]⟩

theorem keeps_modify_of_ne (st : Store) (a : Address k) (f : Cell k.Elem → Cell k.Elem)
    {j : Kind} {b : Address j} (h : (⟨j, b⟩ : Σ k, Address k) ≠ ⟨k, a⟩) :
    st.Keeps (st.modify a f) b := by
  intro hb
  exact ⟨by rwa [size_row_modify], by rw [cell_modify_of_ne st a f h]⟩

theorem keeps_mark (st : Store) (a : Address k) {j : Kind} (b : Address j) :
    st.Keeps (st.mark a) b := by
  by_cases h : (⟨j, b⟩ : Σ k, Address k) = ⟨k, a⟩
  · obtain ⟨rfl, hab⟩ := Sigma.mk.inj h
    obtain rfl := eq_of_heq hab
    intro hb
    exact ⟨by rwa [mark, size_row_modify], by rw [mark, cell_modify_self st _ hb]; rfl⟩
  · exact keeps_modify_of_ne st a _ h

end Store

namespace Vec

/-- What a vector stands for depends on its own cells only. -/
theorem Sound.keeps {v : Vec k} {st st' : Store} (h : v.Sound st)
    (hst : ∀ a ∈ v.addresses, st.Keeps st' a.2) : v.Sound st' ∧ v.plain st' = v.plain st := by
  induction v with
  | dense a =>
    obtain ⟨ha, hc⟩ := hst ⟨_, a⟩ (List.mem_singleton.mpr rfl) h
    exact ⟨ha, hc⟩
  | sequence p n => exact ⟨trivial, rfl⟩
  | exclusion base skip n ih =>
    obtain ⟨hb, hs, hn⟩ := h
    obtain ⟨hb', hp⟩ := ih hb hst
    have hsize : base.size st' = base.size st := by rw [hb'.size_eq, hp, hb.size_eq]
    exact ⟨⟨hb', by rwa [hsize], by rwa [hsize]⟩, by simp only [plain, hp]⟩
  | subset base n index ihb ihx =>
    obtain ⟨hb, hx, hn⟩ := h
    obtain ⟨hb', hp⟩ := ihb hb fun a ha => hst a (List.mem_append_left _ ha)
    obtain ⟨hx', hq⟩ := ihx hx fun a ha => hst a (List.mem_append_right _ ha)
    have hsize : base.size st' = base.size st := by rw [hb'.size_eq, hp, hb.size_eq]
    exact ⟨⟨hb', hx', by rwa [hsize]⟩, by simp only [plain, hp, hq]⟩
  | coercion source ih =>
    obtain ⟨hs, hp⟩ := ih h hst
    exact ⟨hs, by simp only [plain, hp]⟩

theorem keeps_claim (v : Vec k) (st : Store) {j : Kind} (a : Address j) :
    st.Keeps (v.claim st) a := by
  induction v generalizing st with
  | dense b => exact st.keeps_mark b a
  | sequence p n => exact st.keeps_refl a
  | exclusion base skip n ih => exact ih st
  | subset base n index ihb ihx => exact (ihb st).trans (ihx _)
  | coercion source ih => exact ih st

/-- A vector that stands for `p`, in a store where all older cells read as before. -/
structure Makes (st : Store) (made : Vec k × Store) (p : Plain k) : Prop where
  keeps {j : Kind} (a : Address j) : st.Keeps made.2 a
  sound : made.1.Sound made.2
  plain_eq : made.1.plain made.2 = p

theorem Makes.of_sound {v : Vec k} {st : Store} (h : v.Sound st) :
    Makes st (v, st) (v.plain st) :=
  ⟨fun a => st.keeps_refl a, h, rfl⟩

theorem makes_place (contents : Contents k.Elem) (attributes : Option Attributes) (st : Store) :
    Makes st (place contents attributes st) ⟨contents.toList, attributes⟩ := by
  refine ⟨fun a => st.keeps_alloc contents attributes a, ?_, ?_⟩
  · change (st.row k).size < ((st.alloc contents attributes).2.row k).size
    rw [Store.size_row_alloc_self]
    omega
  · change ((st.alloc contents attributes).2.cell (st.alloc contents attributes).1).plain = _
    rw [Store.cell_alloc_self]
    rfl

theorem toList_ofList {α : Type} (xs : List α) : (Contents.ofList xs).toList = xs := by
  rcases xs with _ | ⟨x, _ | ⟨y, xs⟩⟩ <;> simp [Contents.ofList, Contents.toList]

theorem makes_list (xs : List k.Elem) (attributes : Option Attributes) (st : Store) :
    Makes st (place (.ofList xs) attributes st) ⟨xs, attributes⟩ := by
  have h := makes_place (Contents.ofList xs) attributes st
  rwa [toList_ofList] at h

theorem makes_block (xs : List k.Elem) (attributes : Option Attributes) (st : Store) :
    Makes st (place (.block xs.toArray) attributes st) ⟨xs, attributes⟩ :=
  makes_place (.block xs.toArray) attributes st

theorem makes_ofList (xs : List k.Elem) (st : Store) :
    Makes st (ofList xs st) (Plain.ofList xs) := makes_list xs none st

theorem makes_scalar (x : k.Elem) (st : Store) : Makes st (scalar x st) (Plain.ofList [x]) :=
  makes_place (.scalar x) none st

theorem progression_of_error {p : Progression k} {stop : k.Elem} {e : ProgressionFault}
    (h : p.length stop = .error e) (st : Store) : Vec.progression p stop st = .error e := by
  simp only [Vec.progression, h]

theorem progression_of_ok {p : Progression k} {stop : k.Elem} {n : Nat}
    (h : p.length stop = .ok n) (st : Store) :
    ∃ made, Vec.progression p stop st = .ok made ∧ Makes st made (Plain.progression p n) := by
  simp only [Vec.progression, h, Except.ok.injEq, exists_eq_left']
  rw [Plain.progression]
  by_cases hn : n = 1
  · rw [if_pos hn, if_pos hn]
    exact makes_scalar p.start st
  · rw [if_neg hn, if_neg hn]
    exact Makes.of_sound (v := sequence p n) trivial

theorem makes_copy {v : Vec k} {st : Store} (h : v.Sound st) :
    Makes st (v.copy st) (v.plain st) := by
  rw [h.plain_eq]
  exact makes_list (v.elements st) (v.attributes st) st

theorem makes_withAttributes {v : Vec k} {st : Store} (h : v.Sound st) (attributes : Attributes) :
    Makes st (v.withAttributes attributes st) ((v.plain st).withAttributes attributes) := by
  rw [h.plain_eq]
  exact makes_list (v.elements st) attributes.nonEmpty? st

theorem makes_materialize {v : Vec k} {st : Store} (h : v.Sound st) :
    Makes st (v.materialize st) (v.plain st) := by
  rw [materialize]
  split
  · exact Makes.of_sound h
  · rw [h.plain_eq]
    exact makes_block (v.elements st) (v.attributes st) st

theorem encoding_place_block (xs : Array k.Elem) (attributes : Option Attributes) (st : Store) :
    (place (.block xs) attributes st).1.encoding (place (.block xs) attributes st).2 = .block := by
  change (if ((st.alloc (.block xs) attributes).2.cell
    (st.alloc (.block xs) attributes).1).contents.isBlock then _ else _) = _
  rw [Store.cell_alloc_self]
  rfl

theorem encoding_materialize (v : Vec k) (st : Store) :
    (v.materialize st).1.encoding (v.materialize st).2 = .block := by
  rw [materialize]
  split
  · assumption
  · exact encoding_place_block _ _ st

theorem convert_self (s : Kind) : Kind.convert s s = id := by
  cases s <;> rfl

theorem makes_coerce {s : Kind} {v : Vec s} {st : Store} (h : v.Sound st) (t : Kind) :
    Makes st (v.coerce t st) ((v.plain st).coerce t) := by
  have hview : Makes st (coercion v, st) ((v.plain st).coerce t) :=
    Makes.of_sound (v := coercion v) h
  rw [coerce.eq_def]
  by_cases hst : s = t
  · subst hst
    rw [dif_pos rfl, Plain.coerce, convert_self, List.map_id]
    exact Makes.of_sound h
  · rw [dif_neg hst]
    cases v with
    | dense a =>
      cases hc : (st.cell a).contents with
      | scalar x =>
        have hp : ((dense a).plain st).coerce t =
            ⟨[Kind.convert s t x], (st.cell a).attributes⟩ := by
          simp [plain, Cell.plain, hc, Contents.toList, Plain.coerce]
        simp only [hc, hp]
        exact makes_place (.scalar (Kind.convert s t x)) (st.cell a).attributes st
      | block xs =>
        simp only [hc]
        exact hview
    | sequence p n => exact hview
    | exclusion base skip n => exact hview
    | subset base n index => exact hview
    | coercion source => exact hview

theorem exclude_eq_none_iff (v : Vec k) (i : Nat) (st : Store) :
    v.exclude i st = none ↔ v.size st ≤ i := by
  rw [exclude]
  split <;> simp <;> omega

theorem exclude_eq_some {v w : Vec k} {i : Nat} {st : Store} (h : v.Sound st)
    (hw : v.exclude i st = some w) : w.Sound st ∧ w.plain st = (v.plain st).exclude i := by
  rw [exclude] at hw
  split at hw
  case isTrue hi =>
    obtain rfl := Option.some.inj hw
    exact ⟨⟨h, hi, by omega⟩, rfl⟩
  case isFalse => contradiction

theorem gather_sound {v : Vec k} {index : Vec .int} {st : Store} (h : v.Sound st)
    (hx : index.Sound st) : (v.gather index st).Sound st := ⟨h, hx, rfl⟩

theorem set_of_le {v : Vec k} {i : Nat} {st : Store} (h : v.size st ≤ i) (x : k.Elem)
    (sole : Bool) : v.set i x sole st = none := by
  rw [set.eq_def, if_neg (by omega)]

/-- A vector is copied, or it is a block that nobody has claimed, without other holders, and written
in place. -/
theorem set_of_lt {v : Vec k} {i : Nat} {st : Store} (h : i < v.size st) (x : k.Elem)
    (sole : Bool) :
    v.set i x sole st =
        some (place (.block ((v.elements st).set i x).toArray) (v.attributes st) st) ∨
      ∃ a, v = dense a ∧ sole = true ∧ (st.cell a).contents.isBlock = true ∧
        v.isShared st = false ∧ v.set i x sole st = some (v, st.write a i x) := by
  rw [set.eq_def, if_pos h]
  cases v with
  | dense a =>
    by_cases hs : (sole && (st.cell a).contents.isBlock && !(dense a).isShared st) = true
    · refine Or.inr ⟨a, rfl, ?_, ?_, ?_, ?_⟩
      · simp_all
      · simp_all
      · simp_all
      · simp only [hs, if_true]
    · left
      simp only [hs]
      rfl
  | sequence p n => exact Or.inl rfl
  | exclusion base skip n => exact Or.inl rfl
  | subset base n index => exact Or.inl rfl
  | coercion source => exact Or.inl rfl

theorem set_eq_none_iff (v : Vec k) (i : Nat) (x : k.Elem) (sole : Bool) (st : Store) :
    v.set i x sole st = none ↔ v.size st ≤ i := by
  refine ⟨fun hn => ?_, fun h => set_of_le h x sole⟩
  by_cases hi : i < v.size st
  · rcases set_of_lt hi x sole with hs | ⟨a, _, _, _, _, hs⟩
    · rw [hs] at hn
      contradiction
    · rw [hs] at hn
      contradiction
  · omega

theorem makes_replaced {v : Vec k} {st : Store} (h : v.Sound st) (i : Nat) (x : k.Elem) :
    Makes st (place (.block ((v.elements st).set i x).toArray) (v.attributes st) st)
      ((v.plain st).set i x) := by
  rw [h.plain_eq]
  exact makes_block ((v.elements st).set i x) (v.attributes st) st

theorem toList_write {α : Type} {c : Contents α} (hc : c.isBlock = true) (i : Nat) (x : α) :
    (c.write i x).toList = c.toList.set i x := by
  cases c with
  | scalar y => simp [Contents.isBlock] at hc
  | block xs => simp [Contents.write, Contents.toList]

theorem write_plain {a : Address k} {st : Store} (h : (dense a).Sound st)
    (hc : (st.cell a).contents.isBlock = true) (i : Nat) (x : k.Elem) :
    (dense a).Sound (st.write a i x) ∧
      (dense a).plain (st.write a i x) = ((dense a).plain st).set i x := by
  refine ⟨?_, ?_⟩
  · change a.index < ((st.write a i x).row k).size
    rw [Store.write, Store.size_row_modify]
    exact h
  · simp only [plain, Cell.plain, Plain.set, Store.write]
    rw [Store.cell_modify_self st _ h, toList_write hc]

/-- What comes back stands for the list with one element replaced. Every cell reads as before, but
for that of the vector itself when it has no other holder. -/
theorem set_eq_some {v : Vec k} {i : Nat} {x : k.Elem} {sole : Bool} {st : Store}
    {made : Vec k × Store} (h : v.Sound st) (hm : v.set i x sole st = some made) :
    made.1.Sound made.2 ∧ made.1.plain made.2 = (v.plain st).set i x ∧
      ∀ b : Σ j, Address j, (sole = true → b ∉ v.addresses) → st.Keeps made.2 b.2 := by
  have hi : i < v.size st := by
    by_cases hi : i < v.size st
    · exact hi
    · rw [set_of_le (by omega)] at hm
      contradiction
  rcases set_of_lt hi x sole with hs | ⟨a, rfl, hsole, hc, _, hs⟩
  · obtain rfl : _ = made := Option.some.inj (hs.symm.trans hm)
    have hnew := makes_replaced h i x
    exact ⟨hnew.sound, hnew.plain_eq, fun b _ => hnew.keeps b.2⟩
  · obtain rfl : _ = made := Option.some.inj (hs.symm.trans hm)
    obtain ⟨hsound, hplain⟩ := write_plain h hc i x
    refine ⟨hsound, hplain, fun b hb => ?_⟩
    refine st.keeps_modify_of_ne a _ fun hab => hb hsole ?_
    exact List.mem_singleton.mpr hab

/-- Every operation on a handle gives what the plain operation gives on `p`, and fails just where
there is no such element. -/
structure ActsAs (v : Vec k) (st : Store) (p : Plain k) : Prop where
  reads : v.Reads st p
  copy : (v.copy st).1.Reads (v.copy st).2 p
  withAttributes (attributes : Attributes) :
    (v.withAttributes attributes st).1.Reads (v.withAttributes attributes st).2
      (p.withAttributes attributes)
  materialize : (v.materialize st).1.Reads (v.materialize st).2 p
  block : (v.materialize st).1.encoding (v.materialize st).2 = .block
  coerce (t : Kind) : (v.coerce t st).1.Reads (v.coerce t st).2 (p.coerce t)
  exclude_none (i : Nat) : v.exclude i st = none ↔ p.elements.length ≤ i
  exclude_some (i : Nat) (w : Vec k) : v.exclude i st = some w → w.Reads st (p.exclude i)
  gather (index : Vec .int) (q : Plain .int) :
    index.Reads st q → (v.gather index st).Reads st (p.gather q)
  set_none (i : Nat) (x : k.Elem) (sole : Bool) :
    v.set i x sole st = none ↔ p.elements.length ≤ i
  set_some (i : Nat) (x : k.Elem) (sole : Bool) (made : Vec k × Store) :
    v.set i x sole st = some made → made.1.Reads made.2 (p.set i x)

theorem Makes.reads {st : Store} {made : Vec k × Store} {p : Plain k} (h : Makes st made p) :
    made.1.Reads made.2 p := by
  rw [← h.plain_eq]
  exact h.sound.reads

theorem Sound.actsAs {v : Vec k} {st : Store} (h : v.Sound st) : v.ActsAs st (v.plain st) where
  reads := h.reads
  copy := (makes_copy h).reads
  withAttributes attributes := (makes_withAttributes h attributes).reads
  materialize := (makes_materialize h).reads
  block := encoding_materialize v st
  coerce t := (makes_coerce h t).reads
  exclude_none i := by rw [exclude_eq_none_iff, h.size_eq]
  exclude_some i w hw := by
    obtain ⟨hsound, hplain⟩ := exclude_eq_some h hw
    rw [← hplain]
    exact hsound.reads
  gather index q hx := reads_subset h.reads hx rfl
  set_none i x sole := by rw [set_eq_none_iff, h.size_eq]
  set_some i x sole made hm := by
    obtain ⟨hsound, hplain, _⟩ := set_eq_some h hm
    rw [← hplain]
    exact hsound.reads

end Vec

end Deferred
