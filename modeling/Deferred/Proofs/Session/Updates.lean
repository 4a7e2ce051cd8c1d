import Deferred.Proofs.Session.Claims

/-!
# Replacing one element

An update gives back a block with one element replaced. It writes into the storage it found if and
only if that is a block which no register, container or view in existence holds besides the handle
that was taken out, and which no claim of the run ever reached; everything else is copied first.
-/
set_option autoImplicit false

namespace Deferred

variable {k : Kind}

namespace Vec

theorem encoding_eq_block_iff {v : Vec k} {st : Store} :
    v.encoding st = .block ↔ ∃ a, v = dense a ∧ (st.cell a).contents.isBlock = true := by
  cases v with
  | dense a =>
    rw [encoding]
    constructor
    · intro h
      exact ⟨a, rfl, by by_cases hc : (st.cell a).contents.isBlock = true <;> simp_all⟩
    · rintro ⟨b, hb, hc⟩
      obtain rfl := Vec.dense.inj hb
      rw [if_pos hc]
  | _ => simp [encoding]

/-- The vector is a block without other holders that nobody has claimed. -/
structure Exclusive (v : Vec k) (sole : Bool) (st : Store) : Prop where
  block : v.encoding st = .block
  sole : sole = true
  unshared : v.isShared st = false

def replaced (v : Vec k) (i : Nat) (x : k.Elem) (st : Store) : Vec k × Store :=
  place (.block ((v.elements st).set i x).toArray) (v.attributes st) st

theorem set_of_exclusive {a : Address k} {i : Nat} {sole : Bool} {st : Store}
    (hi : i < (dense a).size st) (h : (dense a).Exclusive sole st) (x : k.Elem) :
    (dense a).set i x sole st = some (dense a, st.write a i x) := by
  obtain ⟨b, hb, hblock⟩ := encoding_eq_block_iff.mp h.block
  obtain rfl := Vec.dense.inj hb
  rw [set.eq_def, if_pos hi]
  simp [h.sole, hblock, h.unshared]

theorem set_of_not_exclusive {v : Vec k} {i : Nat} {sole : Bool} {st : Store}
    (hi : i < v.size st) (h : ¬ v.Exclusive sole st) (x : k.Elem) :
    v.set i x sole st = some (v.replaced i x st) := by
  rcases set_of_lt hi x sole with hs | ⟨a, rfl, hsole, hblock, hunshared, _⟩
  · exact hs
  · exact absurd ⟨encoding_eq_block_iff.mpr ⟨a, rfl, hblock⟩, hsole, hunshared⟩ h

/-- What an update makes of a vector: a block nobody has claimed. It is the vector itself if that was
exclusive, and a new cell otherwise; no other cell has changed in anything. -/
structure Updates (v : Vec k) (i : Nat) (x : k.Elem) (exclusive : Prop) (st : Store)
    (a : Address k) (st' : Store) : Prop where
  block : (dense a).encoding st' = .block
  unshared : (dense a).isShared st' = false
  elements_eq : (dense a).elements st' = (v.elements st).set i x
  attributes_eq : (dense a).attributes st' = v.attributes st
  reused_iff : v = dense a ↔ exclusive
  fresh : ¬ exclusive → a.index = (st.row k).size
  cell_eq (b : Σ j, Address j) : b ≠ ⟨k, a⟩ → b.2.index < (st.row b.1).size →
    st'.cell b.2 = st.cell b.2

theorem isBlock_write {α : Type} {c : Contents α} (i : Nat) (x : α) :
    (c.write i x).isBlock = c.isBlock := by
  cases c <;> rfl

theorem cell_replaced (v : Vec k) (i : Nat) (x : k.Elem) {st : Store} {j : Kind} {b : Address j}
    (hb : b.index < (st.row j).size) : (v.replaced i x st).2.cell b = st.cell b :=
  st.cell_alloc_of_lt _ _ hb

/-- An update of a sound vector fails only outside of it. -/
theorem Sound.updates {v : Vec k} {st : Store} (h : v.Sound st) {i : Nat} (hi : i < v.size st)
    (x : k.Elem) (sole : Bool) :
    ∃ a st', v.set i x sole st = some (dense a, st') ∧
      v.Updates i x (v.Exclusive sole st) st a st' := by
  have hread : ∀ made, v.set i x sole st = some made →
      made.1.elements made.2 = (v.elements st).set i x ∧
        made.1.attributes made.2 = v.attributes st := by
    intro made hm
    obtain ⟨hsound, hplain, _⟩ := set_eq_some h hm
    rw [hsound.elements_eq, hsound.attributes_eq, hplain, h.elements_eq, h.attributes_eq]
    exact ⟨rfl, rfl⟩
  by_cases hex : v.Exclusive sole st
  · obtain ⟨a, rfl, hblock⟩ := encoding_eq_block_iff.mp hex.block
    have hm := set_of_exclusive hi hex x
    obtain ⟨helements, hattributes⟩ := hread _ hm
    refine ⟨a, _, hm, ?_, (unshared_set hm).2, helements, hattributes, ?_, ?_, ?_⟩
    · refine encoding_eq_block_iff.mpr ⟨a, rfl, ?_⟩
      rw [Store.write, Store.cell_modify_self st _ h, isBlock_write]
      exact hblock
    · exact iff_of_true rfl hex
    · exact fun hnex => absurd hex hnex
    · exact fun b hb _ => st.cell_modify_of_ne a _ hb
  · have hm := set_of_not_exclusive hi hex x
    obtain ⟨helements, hattributes⟩ := hread _ hm
    refine ⟨⟨(st.row k).size⟩, _, hm, encoding_place_block _ _ st, (unshared_set hm).2, helements,
      hattributes, ?_, fun _ => rfl, fun b _ hb => v.cell_replaced i x hb⟩
    refine iff_of_false ?_ hex
    -- The new cell has an address that was not handed out before.
    rintro rfl
    exact Nat.lt_irrefl _ h

end Vec

namespace Scene

/-- Some environments and promises with this one among them are each held by a register or by one
of them. They may hold each other and need no register then. -/
def InExistence (s : Scene) (e : Owner) : Prop :=
  ∃ P : Owner → Prop, P e ∧ ∀ d, P d →
    (∃ r v, (r, v) ∈ s.registers ∧ d.anchor ∈ v.anchors) ∨
      ∃ c, P c ∧ d.anchor ∈ s.objects.held c

theorem mem_roots_iff {s : Scene} {a : Anchor} :
    a ∈ s.registers.flatMap (·.2.anchors) ↔ ∃ r v, (r, v) ∈ s.registers ∧ a ∈ v.anchors := by
  simp only [List.mem_flatMap, Prod.exists]

theorem anchor_mem_holdings_iff {s : Scene} {e : Owner} :
    e.anchor ∈ s.holdings ↔ s.InExistence e := by
  constructor
  · intro he
    refine ⟨fun d => d.anchor ∈ s.holdings, he, fun d hd => ?_⟩
    rcases Objects.mem_holdings_iff.mp hd with hroot | ⟨c, hc, hheld⟩
    · exact Or.inl (mem_roots_iff.mp hroot)
    · exact Or.inr ⟨c, hc.anchor_mem, hheld⟩
  · rintro ⟨P, he, hP⟩
    rcases hP e he with hroot | ⟨c, hc, hheld⟩
    · exact Objects.mem_holdings_of_root (mem_roots_iff.mpr hroot)
    · -- The holder is itself among the containers that hold something.
      refine Objects.mem_holdings_iff.mpr (Or.inr ⟨c, ?_, hheld⟩)
      refine Objects.survives_of_stable (P := fun d => P d ∧ s.objects.held d ≠ []) ?_
        ⟨hc, List.ne_nil_of_mem hheld⟩
      rintro d ⟨hd, hne⟩
      refine ⟨hne, ?_⟩
      rcases hP d hd with hroot | ⟨b, hb, hmem⟩
      · exact Or.inl (Objects.mem_holdings_of_root (mem_roots_iff.mpr hroot))
      · exact Or.inr ⟨b, ⟨hb, List.ne_nil_of_mem hmem⟩, hmem⟩

/-- Held is what a register has, or a container that is in existence. -/
theorem mem_holdings_iff_inExistence {s : Scene} {a : Anchor} :
    a ∈ s.holdings ↔ (∃ r v, (r, v) ∈ s.registers ∧ a ∈ v.anchors) ∨
      ∃ e, s.InExistence e ∧ a ∈ s.objects.held e := by
  constructor
  · intro ha
    rcases Objects.mem_holdings_iff.mp ha with hroot | ⟨e, he, hheld⟩
    · exact Or.inl (mem_roots_iff.mp hroot)
    · exact Or.inr ⟨e, anchor_mem_holdings_iff.mp he.anchor_mem, hheld⟩
  · rintro (hroot | ⟨e, he, hheld⟩)
    · exact Objects.mem_holdings_of_root (mem_roots_iff.mpr hroot)
    · exact Objects.held_mem_holdings (anchor_mem_holdings_iff.mpr he) hheld

end Scene

namespace Session

/-- A register, a slot of an environment in existence or the value of a promise in existence has, at
any depth, a vector that is the cell or reads from it. -/
def HoldsCell (s : Session) (a : Σ k, Address k) : Prop :=
  ∃ (k : Kind) (w : Vec k), w.ReadsFrom a ∧
    ((∃ r v, (r, v) ∈ s.registers ∧ .vector w ∈ v.anchors) ∨
      ∃ e, s.InExistence e ∧ .vector w ∈ s.objects.held e)

theorem holdsCell_iff {s : Session} {a : Σ k, Address k} :
    s.HoldsCell a ↔ ∃ h ∈ s.holdings, a ∈ h.addresses := by
  constructor
  · rintro ⟨k, w, hw, hheld⟩
    exact ⟨.vector w, Scene.mem_holdings_iff_inExistence.mpr hheld, Vec.mem_addresses_iff.mpr hw⟩
  · rintro ⟨h, hh, ha⟩
    cases h with
    | vector w =>
      exact ⟨_, w, Vec.mem_addresses_iff.mp ha, Scene.mem_holdings_iff_inExistence.mp hh⟩
    | environment id => exact absurd ha List.not_mem_nil
    | promise id => exact absurd ha List.not_mem_nil

theorem isSole_dense_iff {s : Session} {a : Address k} :
    s.isSole (.dense a) = true ↔ ¬ s.HoldsCell ⟨k, a⟩ := by
  simp only [isSole, isFree, List.all_eq_true, decide_eq_true_eq, holdsCell_iff, not_exists, not_and]

/-- After some commands, a vector is a block, nothing that is left holds it and no claim among the
commands reached it. -/
structure Unencumbered (commands : List Command) (rest : Session) (v : Vec k) : Prop where
  block : v.encoding rest.store = .block
  unheld (a : Σ k, Address k) : v.ReadsFrom a → ¬ rest.HoldsCell a
  unclaimed (a : Σ k, Address k) : v.ReadsFrom a → ¬ Session.empty.Claimed commands a

theorem exclusive_iff_unencumbered {commands : List Command} {rest : Session}
    (hrecords : rest.store.Records (Session.empty.markings commands)) (v : Vec k) :
    v.Exclusive (rest.isSole v) rest.store ↔ Unencumbered commands rest v := by
  have hshared : v.isShared rest.store = false ↔
      ∀ a, v.ReadsFrom a → ¬ Session.empty.Claimed commands a := by
    rw [Bool.eq_false_iff, ne_eq, hrecords.isShared_iff]
    simp only [mem_markings_iff, not_exists, not_and]
  have hsole : v.encoding rest.store = .block →
      (rest.isSole v = true ↔ ∀ a, v.ReadsFrom a → ¬ rest.HoldsCell a) := by
    intro hblock
    obtain ⟨a, rfl, _⟩ := Vec.encoding_eq_block_iff.mp hblock
    rw [isSole_dense_iff]
    constructor
    · rintro hfree b (_ | _)
      exact hfree
    · exact fun hfree => hfree _ (.dense a)
  constructor
  · rintro ⟨hblock, hfree, hunshared⟩
    exact ⟨hblock, (hsole hblock).mp hfree, hshared.mp hunshared⟩
  · rintro ⟨hblock, hunheld, hunclaimed⟩
    exact ⟨hblock, (hsole hblock).mpr hunheld, hshared.mpr hunclaimed⟩

theorem store_rest (s : Session) (c : Command) : (s.rest c).store = s.store := by
  cases c with
  | set target source keep k i x => cases keep <;> rfl
  | _ => rfl

theorem value?_putVector (s : Session) (target : Register) (made : Vec k × Store) :
    (s.putVector target made).value? target = some (.vector made.1) := by
  simp [putVector, put, withScene, Scene.put, Scene.value?]

theorem step_set {s : Session} {source : Register} {v : Vec k}
    (hv : s.value? source = some (.vector v)) (target : Register) (keep : Bool) (i : Nat)
    (x : k.Elem) :
    let rest := s.rest (.set target source keep k i x)
    s.step (.set target source keep k i x) =
      match v.set i x (rest.isSole v) s.store with
      | some made => .done (rest.putVector target made)
      | none => .failed rest (.indexOutOfBounds i (v.size s.store)) := by
  have hbind : (s.value? source).bind (Value.vector? k) = some v := by
    rw [hv]
    exact Value.vector?_eq_some_iff.mpr rfl
  change s.set target source keep i x = _
  rw [set, hbind]
  rfl

/-- After any commands, an update of the vector in a register fails if and only if there is no such
element; it then tells the position and the size, and no cell has changed. Otherwise the target gets
a block that nobody has claimed, with the element replaced and the attributes kept. This is the old
block if nothing else in existence holds it and no claim ever reached it, and a new one in all other
cases; every other cell is as it was. -/
theorem run_set_outcome (commands : List Command) (target source : Register) (keep : Bool)
    (i : Nat) (x : k.Elem) {v : Vec k}
    (hv : (empty.run commands).value? source = some (.vector v)) :
    let s := empty.run commands
    let rest := s.rest (.set target source keep k i x)
    let t := s.step (.set target source keep k i x)
    (t.complaint ≠ none ↔ v.size s.store ≤ i) ∧
      (v.size s.store ≤ i →
        t.complaint = some (.fault (.indexOutOfBounds i (v.size s.store))) ∧
          t.session = rest ∧ t.session.store = s.store) ∧
      (i < v.size s.store →
        ∃ a, t.session.value? target = some (.vector (.dense a)) ∧
          v.Updates i x (Unencumbered commands rest v) s.store a t.session.store) := by
  intro s rest t
  have hmirrors : s.Mirrors (Ledger.run Scene.empty commands) := Mirrors.empty.run commands
  have hheld : .vector v ∈ s.holdings :=
    Scene.mem_holdings_of_value? hv (List.mem_singleton.mpr rfl)
  have hsound : v.Sound s.store := hmirrors.sound hheld
  have hrecords : rest.store.Records (empty.markings commands) := by
    rw [s.store_rest]
    exact Mirrors.empty.records_run .empty commands
  have hstep : t = match v.set i x (rest.isSole v) s.store with
      | some made => .done (rest.putVector target made)
      | none => .failed rest (.indexOutOfBounds i (v.size s.store)) :=
    step_set hv target keep i x
  by_cases hi : i < v.size s.store
  · obtain ⟨a, st, hm, hupdates⟩ := hsound.updates hi x (rest.isSole v)
    rw [hm] at hstep
    have hexclusive : v.Exclusive (rest.isSole v) s.store ↔ Unencumbered commands rest v := by
      rw [← s.store_rest (.set target source keep k i x)]
      exact exclusive_iff_unencumbered hrecords v
    rw [hexclusive] at hupdates
    refine ⟨?_, fun hle => absurd hi (by omega), fun _ => ⟨a, ?_, ?_⟩⟩
    · rw [hstep]
      exact iff_of_false (fun h => h rfl) (by omega)
    · rw [hstep]
      exact value?_putVector rest target _
    · rw [hstep]
      exact hupdates
  · have hle : v.size s.store ≤ i := by omega
    rw [Vec.set_of_le hle] at hstep
    refine ⟨?_, fun _ => ?_, fun hlt => absurd hlt hi⟩
    · rw [hstep]
      exact iff_of_true (by simp [Step.failed]) hle
    · rw [hstep]
      exact ⟨rfl, rfl, s.store_rest _⟩

/-- A view in a slot of an environment holds the block. Once the environment is gone the block is
written in place. -/
theorem run_set_outcome_after_drop :
    let b := Register.named "b"
    let y := Register.named "y"
    let e := Register.named "e"
    let before : List Command := [.vector b .int [1, 2, 3], .environment e .global, .exclude y b 0,
      .define e ⟨"v"⟩ y, .drop y]
    let commands := before ++ [.drop e]
    let block : Vec .int := .dense ⟨0⟩
    (empty.run before).value? b = some (.vector block) ∧
      ¬ Unencumbered before ((empty.run before).rest (.set b b false .int 1 9)) block ∧
      (empty.run commands).value? b = some (.vector block) ∧
      Unencumbered commands ((empty.run commands).rest (.set b b false .int 1 9)) block ∧
      ((empty.run commands).step (.set b b false .int 1 9)).session.value? b =
        some (.vector block) := by
  intro b y e before commands block
  have hbefore : (empty.run before).value? b = some (.vector block) := rfl
  have hv : (empty.run commands).value? b = some (.vector block) := rfl
  obtain ⟨-, -, hfirst⟩ := run_set_outcome before b b false 1 9 hbefore
  obtain ⟨-, -, hsecond⟩ := run_set_outcome commands b b false 1 9 hv
  have hlt : 1 < block.size (empty.run before).store := by decide +kernel
  have hlt' : 1 < block.size (empty.run commands).store := by decide +kernel
  obtain ⟨a, ha, hcopied⟩ := hfirst hlt
  obtain ⟨c, hc, hreused⟩ := hsecond hlt'
  have hnew : (((empty.run before).step (.set b b false .int 1 9)).session.value? b).map
      (fun w => w.anchors.flatMap Anchor.addresses) = some [⟨.int, ⟨1⟩⟩] := by decide +kernel
  have hold : (((empty.run commands).step (.set b b false .int 1 9)).session.value? b).map
      (fun w => w.anchors.flatMap Anchor.addresses) = some [⟨.int, ⟨0⟩⟩] := by decide +kernel
  rw [ha] at hnew
  rw [hc] at hold
  obtain rfl : a = ⟨1⟩ := by simpa [Value.anchors, Anchor.addresses, Vec.addresses] using hnew
  obtain rfl : c = ⟨0⟩ := by simpa [Value.anchors, Anchor.addresses, Vec.addresses] using hold
  refine ⟨hbefore, fun h => ?_, hv, hreused.reused_iff.mp rfl, hc⟩
  have hsame := hcopied.reused_iff.mpr h
  simp [block] at hsame

end Session

end Deferred
