import Deferred.Proofs.Session.Run
import Deferred.Proofs.Vector.Marks

/-!
# Claims of a run

Only claims change marks. So after any commands the marks in the store record what the claims among
them reached, and a vector is shared just when one of them was on a cell that it is or reads from,
or on a view over such a cell.
-/
set_option autoImplicit false

namespace Deferred

namespace Session

/-- The cells that a command marks, each as often as it does. -/
def marked (s : Session) : Command → List (Σ k, Address k)
  | .claim r =>
    match s.value? r with
    | some (.vector v) => v.addresses
    | _ => []
  | _ => []

def markings (s : Session) : List Command → List (Σ k, Address k)
  | [] => []
  | c :: cs => s.marked c ++ (s.step c).session.markings cs

/-- Some claim among the commands is on a vector that is the cell or reads from it. -/
def Claimed (s : Session) (commands : List Command) (a : Σ k, Address k) : Prop :=
  ∃ before r after, commands = before ++ .claim r :: after ∧
    ∃ (k : Kind) (v : Vec k), (s.run before).value? r = some (.vector v) ∧ v.ReadsFrom a

theorem marked_of_ne {c : Command} (hc : ∀ r, c ≠ .claim r) (s : Session) : s.marked c = [] := by
  cases c with
  | claim r => exact absurd rfl (hc r)
  | _ => rfl

theorem mem_marked_iff {s : Session} {c : Command} {a : Σ k, Address k} :
    a ∈ s.marked c ↔ ∃ r, c = .claim r ∧
      ∃ (k : Kind) (v : Vec k), s.value? r = some (.vector v) ∧ v.ReadsFrom a := by
  constructor
  · intro ha
    cases c with
    | claim r =>
      rw [marked] at ha
      split at ha
      case h_1 k v hv => exact ⟨r, rfl, k, v, hv, Vec.mem_addresses_iff.mp ha⟩
      case h_2 => exact absurd ha List.not_mem_nil
    | _ => exact absurd ha List.not_mem_nil
  · rintro ⟨r, rfl, k, v, hv, ha⟩
    rw [marked, hv]
    exact Vec.mem_addresses_iff.mpr ha

theorem mem_markings_iff {s : Session} {commands : List Command} {a : Σ k, Address k} :
    a ∈ s.markings commands ↔ s.Claimed commands a := by
  induction commands generalizing s with
  | nil =>
    refine ⟨fun ha => absurd ha List.not_mem_nil, ?_⟩
    rintro ⟨before, r, after, hcommands, _⟩
    simp at hcommands
  | cons c cs ih =>
    rw [markings, List.mem_append, ih, mem_marked_iff]
    constructor
    · rintro (⟨r, rfl, hr⟩ | ⟨before, r, after, rfl, hr⟩)
      · exact ⟨[], r, cs, rfl, hr⟩
      · exact ⟨c :: before, r, after, rfl, hr⟩
    · rintro ⟨before, r, after, hcommands, hr⟩
      cases before with
      | nil =>
        obtain ⟨rfl, rfl⟩ := List.cons.inj hcommands
        exact Or.inl ⟨r, rfl, hr⟩
      | cons d before =>
        obtain ⟨rfl, rfl⟩ := List.cons.inj hcommands
        exact Or.inr ⟨before, r, after, rfl, hr⟩

theorem sameMarks_onVector {s : Session} (r : Register) {f : (k : Kind) → Vec k → Step Session}
    (hf : ∀ {k : Kind} (v : Vec k), s.store.SameMarks (f k v).session.store) :
    s.store.SameMarks (s.onVector r f).session.store := by
  rw [onVector]
  split
  · exact hf _
  · exact .refl s.store

theorem sameMarks_makeProgression (s : Session) (target : Register) {k : Kind}
    (p : Progression k) (stop : k.Elem) :
    s.store.SameMarks (s.makeProgression target p stop).session.store := by
  rw [makeProgression]
  split
  case h_1 made hmade => exact Vec.sameMarks_progression hmade
  case h_2 => exact .refl s.store

theorem sameMarks_set (s : Session) (target source : Register) (keep : Bool) {k : Kind} (i : Nat)
    (x : k.Elem) : s.store.SameMarks (s.set target source keep i x).session.store := by
  have hstore : (if keep then s else s.drop source).store = s.store := by cases keep <;> rfl
  rw [set]
  generalize (if keep then s else s.drop source) = rest at hstore ⊢
  cases (s.value? source).bind (Value.vector? k) with
  | none => exact .refl s.store
  | some v =>
    cases hmade : v.set i x (rest.isSole v) s.store with
    | none =>
      simp only [hmade]
      change s.store.SameMarks rest.store
      rw [hstore]
      exact .refl s.store
    | some made =>
      simp only [hmade]
      exact (Vec.unshared_set hmade).1

theorem sameMarks_step {c : Command} (hc : ∀ r, c ≠ .claim r) (s : Session) :
    s.store.SameMarks (s.step c).session.store := by
  cases c with
  | claim r => exact absurd rfl (hc r)
  | vector target k xs => exact s.store.sameMarks_alloc _ _
  | scalar target k x => exact s.store.sameMarks_alloc _ _
  | replicate target k n x => exact s.store.sameMarks_alloc _ _
  | progression target k p stop => exact s.sameMarks_makeProgression target p stop
  | copy target source => exact sameMarks_onVector source fun v => s.store.sameMarks_alloc _ _
  | withAttributes target source attributes =>
    exact sameMarks_onVector source fun v => s.store.sameMarks_alloc _ _
  | materialize target source =>
    exact sameMarks_onVector source fun v => v.sameMarks_materialize s.store
  | exclude target source i =>
    refine sameMarks_onVector source fun v => ?_
    split <;> exact .refl s.store
  | gather target source index =>
    refine sameMarks_onVector source fun v => ?_
    split <;> exact .refl s.store
  | coerce target source k =>
    exact sameMarks_onVector source fun v => v.sameMarks_coerce k s.store
  | set target source keep k i x => exact s.sameMarks_set target source keep i x
  | _ => exact .refl s.store

namespace Mirrors

variable {s : Session} {l : Ledger} {history : List (Σ k, Address k)}

theorem records_claim (h : s.Mirrors l) (hs : s.store.Records history) (r : Register) :
    (s.claim r).session.store.Records (history ++ s.marked (.claim r)) := by
  rw [Session.claim, marked]
  cases hv : s.value? r with
  | none => rwa [List.append_nil]
  | some v =>
    cases v with
    | vector v =>
      have hheld : .vector v ∈ s.holdings :=
        Scene.mem_holdings_of_value? hv (by simp [Value.anchors])
      exact hs.claim (h.sound hheld)
    | _ => rwa [List.append_nil]

theorem records_step (h : s.Mirrors l) (hs : s.store.Records history) (c : Command) :
    (s.step c).session.store.Records (history ++ s.marked c) := by
  by_cases hc : ∃ r, c = .claim r
  · obtain ⟨r, rfl⟩ := hc
    exact h.records_claim hs r
  · have hne : ∀ r, c ≠ .claim r := fun r hr => hc ⟨r, hr⟩
    rw [marked_of_ne hne s, List.append_nil]
    exact hs.of_sameMarks (sameMarks_step hne s)

theorem records_run (h : s.Mirrors l) (hs : s.store.Records history) (commands : List Command) :
    (s.run commands).store.Records (history ++ s.markings commands) := by
  -- Each step adds to the history, so the rest of the run starts from a longer one.
  induction commands generalizing s l history with
  | nil => rwa [markings, List.append_nil]
  | cons c cs ih =>
    have hrun := ih (h.step c).session (h.records_step hs c)
    rwa [List.append_assoc] at hrun

end Mirrors

/-- After any commands a vector is shared if and only if one of them claimed a cell that it is or
reads from, or a view over such a cell. A cell has one mark for every time that a claim reached it,
up to the greatest count, so that what is shared stays so. A further claim shares the vectors that
have a cell in common with the claimed one and no others. What has no cell is never shared, and what
is copied starts unshared. -/
theorem run_isShared_iff_claimed (commands : List Command) :
    let s := Session.empty.run commands
    (∀ {k : Kind} (v : Vec k), v.isShared s.store = true ↔
        ∃ a, v.ReadsFrom a ∧ Session.empty.Claimed commands a) ∧
      s.store.Records (Session.empty.markings commands) ∧
      (∀ {k : Kind} (v : Vec k), .vector v ∈ s.holdings → ∀ {j : Kind} (w : Vec j),
        w.isShared (v.claim s.store) = true ↔
          w.isShared s.store = true ∨ ∃ a, w.ReadsFrom a ∧ v.ReadsFrom a) ∧
      (∀ {k : Kind} (v : Vec k), (∀ a, ¬ v.ReadsFrom a) → v.isShared s.store = false) ∧
      (∀ (after : List Command) {k : Kind} (v : Vec k),
        v.isShared s.store = true → v.isShared (s.run after).store = true) ∧
      ∀ {k : Kind} (v : Vec k), v.CopiesUnshared s.store := by
  intro s
  have h : s.Mirrors (Ledger.run Scene.empty commands) := Mirrors.empty.run commands
  have hs : s.store.Records (Session.empty.markings commands) :=
    Mirrors.empty.records_run .empty commands
  refine ⟨?_, hs, ?_, ?_, ?_, fun v => v.copiesUnshared s.store⟩
  · intro k v
    rw [hs.isShared_iff]
    exact exists_congr fun a => and_congr_right fun _ => mem_markings_iff
  · intro k v hv j w
    have hclaim := hs.claim (h.sound hv)
    simp only [hclaim.isShared_iff, hs.isShared_iff, List.mem_append, Vec.mem_addresses_iff,
      and_or_left, exists_or]
  · intro k v hv
    rw [Bool.eq_false_iff, ne_eq, hs.isShared_iff]
    rintro ⟨a, ha, _⟩
    exact hv a ha
  · intro after k v hv
    have hafter := h.records_run hs after
    obtain ⟨a, ha, hmarked⟩ := (hs.isShared_iff v).mp hv
    exact (hafter.isShared_iff v).mpr ⟨a, ha, List.mem_append_left _ hmarked⟩

/-- A claim on a view of a block gathered by itself marks the block twice and nothing else. -/
theorem run_isShared_iff_claimed_gathered_by_itself :
    let x := Register.named "x"
    let y := Register.named "y"
    let z := Register.named "z"
    let w := Register.named "w"
    let commands : List Command := [.vector x .int [1, 2, 3], .gather y x x, .exclude z y 0,
      .scalar w .int 5, .claim z]
    let s := empty.run commands
    let block : Vec .int := .dense ⟨0⟩
    let view : Vec .int := .exclusion (.subset block 3 block) 0 2
    let scalar : Vec .int := .dense ⟨1⟩
    let terms : Vec .int := .sequence (.int 1 1) 5
    (∃ a, block.ReadsFrom a ∧ empty.Claimed commands a) ∧ block.isShared s.store = true ∧
      (s.store.cell (k := .int) ⟨0⟩).marks.count.toNat = 2 ∧
      .vector scalar ∈ s.holdings ∧ scalar.isShared s.store = false ∧
      (view.isShared (scalar.claim s.store) = true ↔
        view.isShared s.store = true ∨ ∃ a, view.ReadsFrom a ∧ scalar.ReadsFrom a) ∧
      (∀ a, ¬ terms.ReadsFrom a) ∧ terms.isShared s.store = false ∧
      block.isShared (s.run [.claim x, .claim x]).store = true ∧
      view.encoding s.store ≠ .block ∧
      (view.materialize s.store).1.isShared (view.materialize s.store).2 = false ∧
      scalar.encoding s.store = .scalar ∧
      (scalar.coerce .double s.store).1.isShared (scalar.coerce .double s.store).2 = false := by
  intro x y z w commands s block view scalar terms
  obtain ⟨hshared, hrecords, hclaim, hnever, hafter, hcopies⟩ := run_isShared_iff_claimed commands
  have hblock : block.isShared s.store = true := by decide +kernel
  have hscalar : .vector scalar ∈ s.holdings :=
    Scene.mem_holdings_of_value? (r := w) rfl (List.mem_singleton.mpr rfl)
  have hterms : ∀ a, ¬ terms.ReadsFrom a :=
    fun a ha => absurd (Vec.mem_addresses_iff.mpr ha) List.not_mem_nil
  have hcount : (empty.markings commands).count (⟨.int, ⟨0⟩⟩ : Σ k, Address k) = 2 := by decide
  have hstore : s.store.Records (empty.markings commands) := hrecords
  have hmarks := hstore ⟨.int, ⟨0⟩⟩
  simp only [hcount] at hmarks
  have hview : view.encoding s.store ≠ .block := by decide
  have hone : scalar.encoding s.store = .scalar := by decide +kernel
  exact ⟨(hshared block).mp hblock, hblock, hmarks.trans (by decide), hscalar, by decide +kernel,
    hclaim scalar hscalar view, hterms, hnever terms hterms,
    hafter [.claim x, .claim x] block hblock, hview, (hcopies view).materialize hview, hone,
    (hcopies scalar).coerce .double hone (by decide)⟩

end Session

end Deferred
