import Mathlib.Data.List.GetD
import Mathlib.Data.List.InsertIdx
import Deferred.Proofs.Vector.Operations

set_option autoImplicit false

namespace Deferred

variable {k : Kind}

namespace Plain

theorem pick_missing (xs : List k.Elem) : pick xs Kind.missingInt = k.missing := rfl

theorem pick_map {j : Kind} (f : j.Elem → k.Elem) (hf : f j.missing = k.missing)
    (xs : List j.Elem) (i : Int32) : pick (xs.map f) i = f (pick xs i) := by
  unfold pick
  by_cases hi : i.toInt ≤ 0
  · rw [if_pos hi, if_pos hi, hf]
  · rw [if_neg hi, if_neg hi, ← hf, List.getD_map]

theorem gather_gather (p : Plain k) (a b : Plain .int) :
    (p.gather a).gather b = p.gather (a.gather b) := by
  have hpick : ∀ i, pick (a.elements.map (pick p.elements)) i =
      pick p.elements (pick a.elements i) :=
    pick_map (pick p.elements) (pick_missing p.elements) a.elements
  simp only [gather, ofList, List.map_map]
  congr 1
  exact List.map_congr_left fun i _ => hpick i

theorem coerce_gather (p : Plain k) (a : Plain .int) (t : Kind) :
    (p.gather a).coerce t = (p.coerce t).gather a := by
  have hpick : ∀ i, pick (p.elements.map (Kind.convert k t)) i =
      Kind.convert k t (pick p.elements i) :=
    pick_map (Kind.convert k t) (Kind.convert_missing k t) p.elements
  simp only [gather, coerce, ofList, List.map_map]
  congr 1
  exact List.map_congr_left fun i _ => (hpick i).symm

theorem coerce_exclude (p : Plain k) (i : Nat) (t : Kind) :
    (p.exclude i).coerce t = (p.coerce t).exclude i := by
  simp only [exclude, coerce, ofList, List.eraseIdx_map]

end Plain

namespace Vec

/-- Two vectors, each in its own store, that no reading tells apart. -/
structure Alike (v : Vec k) (st : Store) (w : Vec k) (st' : Store) : Prop where
  size_eq : v.size st = w.size st'
  element_eq (i : Nat) : v.element? st i = w.element? st' i
  attributes_eq : v.attributes st = w.attributes st'

theorem Reads.alike {v w : Vec k} {st st' : Store} {p : Plain k} (h : v.Reads st p)
    (h' : w.Reads st' p) : v.Alike st w st' :=
  ⟨h.size_eq.trans h'.size_eq.symm, fun i => (h.element_eq i).trans (h'.element_eq i).symm,
    h.attributes_eq.trans h'.attributes_eq.symm⟩

theorem Sound.alike {v w : Vec k} {st st' : Store} (h : v.Sound st) (h' : w.Sound st')
    (hp : v.plain st = w.plain st') : v.Alike st w st' := by
  have hreads := h.reads
  rw [hp] at hreads
  exact hreads.alike h'.reads

def pick (v : Vec k) (st : Store) (j : Int32) : k.Elem :=
  if j.toInt ≤ 0 then k.missing else (v.element? st (j.toInt.toNat - 1)).getD k.missing

theorem Reads.pick_eq {v : Vec k} {st : Store} {p : Plain k} (h : v.Reads st p) :
    v.pick st = Plain.pick p.elements := by
  funext j
  rw [pick, Plain.pick, h.element_eq, List.getD_eq_getElem?_getD]

theorem Sound.element_gather {v : Vec k} {a : Vec .int} {st : Store} (hv : v.Sound st)
    (ha : a.Sound st) (i : Nat) :
    (v.gather a st).element? st i = (a.element? st i).map (v.pick st) := by
  rw [(gather_sound hv ha).reads.element_eq, ha.reads.element_eq, hv.reads.pick_eq]
  exact List.getElem?_map

theorem Sound.pick_gather {v : Vec k} {a : Vec .int} {st : Store} (hv : v.Sound st)
    (ha : a.Sound st) (j : Int32) : (v.gather a st).pick st j = v.pick st (a.pick st j) := by
  rw [(gather_sound hv ha).reads.pick_eq, ha.reads.pick_eq, hv.reads.pick_eq]
  exact Plain.pick_map (Plain.pick (v.plain st).elements) rfl (a.plain st).elements j

theorem Sound.element_gather_gather {v : Vec k} {a b : Vec .int} {st : Store} (hv : v.Sound st)
    (ha : a.Sound st) (hb : b.Sound st) (i : Nat) :
    ((v.gather a st).gather b st).element? st i =
      (b.element? st i).map fun j => v.pick st (a.pick st j) := by
  rw [(gather_sound hv ha : (v.gather a st).Sound st).element_gather hb i]
  congr 1
  exact funext (hv.pick_gather ha)

theorem Sound.gather_gather {v : Vec k} {a b : Vec .int} {st : Store} (hv : v.Sound st)
    (ha : a.Sound st) (hb : b.Sound st) :
    ((v.gather a st).gather b st).Alike st (v.gather (a.gather b st) st) st := by
  have hleft := gather_sound (gather_sound hv ha) hb
  have hright := gather_sound hv (gather_sound ha hb)
  exact hleft.alike hright (Plain.gather_gather (v.plain st) (a.plain st) (b.plain st))

theorem Makes.gather {st : Store} {made : Vec k × Store} {p : Plain k} (h : Makes st made p)
    {a : Vec .int} (ha : a.Sound st) :
    (made.1.gather a made.2).Sound made.2 ∧
      (made.1.gather a made.2).plain made.2 = p.gather (a.plain st) := by
  obtain ⟨ha', hplain⟩ := ha.keeps fun c _ => h.keeps c.2
  refine ⟨gather_sound h.sound ha', ?_⟩
  rw [← h.plain_eq, ← hplain]
  rfl

theorem Sound.coerce_gather {v : Vec k} {a : Vec .int} {st : Store} (hv : v.Sound st)
    (ha : a.Sound st) (t : Kind) :
    let after := (v.gather a st).coerce t st
    let before := v.coerce t st
    after.1.Alike after.2 (before.1.gather a before.2) before.2 := by
  intro after before
  have hafter := makes_coerce (gather_sound hv ha) t
  obtain ⟨hsound, hplain⟩ := (makes_coerce hv t).gather ha
  refine hafter.sound.alike hsound ?_
  rw [hafter.plain_eq, hplain]
  exact Plain.coerce_gather (v.plain st) (a.plain st) t

theorem Sound.element_coerce {v : Vec k} {st : Store} (hv : v.Sound st) (t : Kind) (i : Nat) :
    (v.coerce t st).1.element? (v.coerce t st).2 i =
      (v.element? st i).map (Kind.convert k t) := by
  rw [(makes_coerce hv t).reads.element_eq, hv.reads.element_eq]
  exact List.getElem?_map

theorem Sound.element_coerce_gather {v : Vec k} {a : Vec .int} {st : Store} (hv : v.Sound st)
    (ha : a.Sound st) (t : Kind) (i : Nat) :
    let before := v.coerce t st
    (before.1.gather a before.2).element? before.2 i =
      (a.element? st i).map fun j => Kind.convert k t (v.pick st j) := by
  intro before
  have hgather : (v.gather a st).Sound st := gather_sound hv ha
  rw [← (hv.coerce_gather ha t).element_eq i, hgather.element_coerce t, hv.element_gather ha,
    Option.map_map]
  rfl

theorem Sound.size_coerce {v : Vec k} {st : Store} (hv : v.Sound st) (t : Kind) :
    (v.coerce t st).1.size (v.coerce t st).2 = v.size st := by
  have hmade := makes_coerce hv t
  rw [hmade.sound.size_eq, hmade.plain_eq, hv.size_eq, Plain.coerce, List.length_map]

theorem Sound.coerce_exclude {v : Vec k} {st : Store} (hv : v.Sound st) (t : Kind) {i : Nat}
    (hi : i < v.size st) :
    let before := v.coerce t st
    ∃ x y, v.exclude i st = some x ∧ before.1.exclude i before.2 = some y ∧
      (x.coerce t st).1.Alike (x.coerce t st).2 y before.2 := by
  intro before
  have hbefore := makes_coerce hv t
  have hsize : before.1.size before.2 = v.size st := hv.size_coerce t
  have hx : v.exclude i st = some (exclusion v i (v.size st - 1)) := if_pos hi
  have hy : before.1.exclude i before.2 =
      some (exclusion before.1 i (before.1.size before.2 - 1)) := if_pos (by omega)
  obtain ⟨hxsound, hxplain⟩ := exclude_eq_some hv hx
  obtain ⟨hysound, hyplain⟩ := exclude_eq_some hbefore.sound hy
  have hafter := makes_coerce hxsound t
  refine ⟨_, _, hx, hy, hafter.sound.alike hysound ?_⟩
  rw [hafter.plain_eq, hxplain, hyplain, hbefore.plain_eq]
  exact Plain.coerce_exclude (v.plain st) i t

theorem Sound.exclude_coerce_of_le {v : Vec k} {st : Store} (hv : v.Sound st) (t : Kind) {i : Nat}
    (hi : v.size st ≤ i) :
    let before := v.coerce t st
    v.exclude i st = none ∧ before.1.exclude i before.2 = none := by
  intro before
  have hsize : before.1.size before.2 = v.size st := hv.size_coerce t
  rw [exclude_eq_none_iff, exclude_eq_none_iff, hsize]
  exact ⟨hi, hi⟩

end Vec

end Deferred
