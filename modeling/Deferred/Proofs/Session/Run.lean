import Deferred.Proofs.Session.SceneStep
import Deferred.Proofs.Session.VectorStep

/-!
# Whole runs

A session started empty is mirrored, after any commands, by the ledger that took the same commands.
So a handle reads through its whole life what it read when it was made, and every view of it is the
plain list function of what is behind it.
-/
set_option autoImplicit false

namespace Deferred

/-- A vector reads the same in two stores. -/
structure Vec.SameReadings {k : Kind} (v : Vec k) (st st' : Store) : Prop where
  size_eq : v.size st' = v.size st
  element_eq (i : Nat) : v.element? st' i = v.element? st i
  attributes_eq : v.attributes st' = v.attributes st

namespace Vec

variable {k : Kind}

theorem SameReadings.refl (v : Vec k) (st : Store) : v.SameReadings st st :=
  ⟨rfl, fun _ => rfl, rfl⟩

theorem SameReadings.trans {v : Vec k} {st st' st'' : Store} (h : v.SameReadings st st')
    (h' : v.SameReadings st' st'') : v.SameReadings st st'' :=
  ⟨h'.size_eq.trans h.size_eq, fun i => (h'.element_eq i).trans (h.element_eq i),
    h'.attributes_eq.trans h.attributes_eq⟩

theorem Reads.sameReadings {v : Vec k} {st st' : Store} {p : Plain k} (h : v.Reads st p)
    (h' : v.Reads st' p) : v.SameReadings st st' :=
  ⟨h'.size_eq.trans h.size_eq.symm, fun i => (h'.element_eq i).trans (h.element_eq i).symm,
    h'.attributes_eq.trans h.attributes_eq.symm⟩

theorem Sound.sameReadings {v : Vec k} {st st' : Store} (h : v.Sound st)
    (hst : ∀ a ∈ v.addresses, st.Keeps st' a.2) {w : Σ k, Vec k} (hw : w ∈ v.layers) :
    w.2.SameReadings st st' := by
  have hsound := h.of_mem_layers hw
  obtain ⟨hsound', hplain⟩ :=
    hsound.keeps fun a ha => hst a (addresses_subset_of_mem_layers hw ha)
  have hreads := hsound'.reads
  rw [hplain] at hreads
  exact hsound.reads.sameReadings hreads

end Vec

namespace Session

/-- Through a run, some handle to a vector other than those taken out is in existence. -/
def Retains (s : Session) {k : Kind} (v : Vec k) : List Command → Prop
  | [] => True
  | c :: cs => .vector v ∈ (s.rest c).holdings ∧ (s.step c).session.Retains v cs

namespace Mirrors

theorem empty : Session.empty.Mirrors Scene.empty := by
  refine ⟨rfl, rfl, rfl, rfl, fun a ha => ?_⟩
  have hnil : Session.empty.holdings = [] := rfl
  rw [hnil] at ha
  contradiction

theorem step {s : Session} {l : Ledger} (h : s.Mirrors l) (c : Command) :
    (s.step c).Mirrors (s.rest c) (l.step c) := by
  cases c with
  | share target source => exact h.share target source
  | drop r => exact done (h.drop r) rfl
  | null target => exact done (h.put_held target (v := .null) fun a ha => nomatch ha) rfl
  | symbol target name =>
    exact done (h.put_held target (v := .symbol name) fun a ha => nomatch ha) rfl
  | quote target n => exact h.makeQuote target n
  | promise target n scope => exact h.makePromise target n scope
  | fulfil promise value => exact h.fulfil promise value
  | bundle target entries => exact h.makeBundle target entries
  | list target items => exact h.makeList target items
  | environment target standing => exact h.makeEnvironment target standing
  | define environment name value => exact h.define environment name value
  | fetch target environment name => exact h.fetch target environment name
  | closure target formals body scope => exact h.makeClosure target formals body scope
  | substitute target source n limit => exact h.substitute target source n limit
  | vector target k xs => exact h.made target (Vec.makes_ofList xs s.store)
  | scalar target k x => exact h.made target (Vec.makes_scalar x s.store)
  | replicate target k n x => exact h.made target (Vec.makes_ofList (List.replicate n x) s.store)
  | progression target k p stop => exact h.makeProgression target p stop
  | copy target source =>
    exact h.onVector source fun v hv => h.made target (Vec.makes_copy (h.sound hv))
  | withAttributes target source attributes =>
    exact h.onVector source fun v hv =>
      h.made target (Vec.makes_withAttributes (h.sound hv) attributes)
  | materialize target source => exact h.materialize target source
  | exclude target source i => exact h.exclude target source i
  | gather target source index => exact h.gather target source index
  | coerce target source k =>
    exact h.onVector source fun v hv => h.made target (Vec.makes_coerce (h.sound hv) k)
  | claim r => exact h.claim r
  | set target source keep k i x => exact h.set target source keep i x

theorem run {s : Session} {l : Ledger} (h : s.Mirrors l) (commands : List Command) :
    (s.run commands).Mirrors (l.run commands) := by
  induction commands generalizing s l with
  | nil => exact h
  | cons c cs ih => exact ih (h.step c).session

/-- A command changes no reading of a handle that it did not take. -/
theorem sameReadings_step {s : Session} {l : Ledger} (h : s.Mirrors l) (c : Command) {k : Kind}
    {v : Vec k} (hv : .vector v ∈ (s.rest c).holdings) {w : Σ k, Vec k} (hw : w ∈ v.layers) :
    w.2.SameReadings s.store (s.step c).session.store := by
  have hrest : ∃ l', (s.rest c).Mirrors l' ∧ (s.rest c).store = s.store := by
    cases c with
    | set target source keep k i x =>
      cases keep
      · exact ⟨_, h.drop source, rfl⟩
      · exact ⟨_, h, rfl⟩
    | _ => exact ⟨_, h, rfl⟩
  obtain ⟨l', hl', hstore⟩ := hrest
  have hsame := (hl'.sound hv).sameReadings ((h.step c).keeps v hv) hw
  rwa [hstore] at hsame

theorem sameReadings_run {s : Session} {l : Ledger} (h : s.Mirrors l) (commands : List Command)
    {k : Kind} {v : Vec k} (hv : s.Retains v commands) {w : Σ k, Vec k} (hw : w ∈ v.layers) :
    w.2.SameReadings s.store (s.run commands).store := by
  induction commands generalizing s l with
  | nil => exact Vec.SameReadings.refl w.2 s.store
  | cons c cs ih =>
    obtain ⟨hmem, hrest⟩ := hv
    exact (h.sameReadings_step c hmem hw).trans (ih (h.step c).session hrest)

end Mirrors

/-- After any commands a session is mirrored by the ledger, and so is its next step, failed or not.
Every vector in existence, and every one behind it, reads as the plain vector it stands for. While a
handle stays in existence without being taken out, it reads the same. -/
theorem run_mirrors_ledger (before : List Command) :
    let s := Session.empty.run before
    let l := Ledger.run Scene.empty before
    s.Mirrors l ∧
      (∀ c, (s.step c).Mirrors (s.rest c) (l.step c)) ∧
      (∀ {k : Kind} (v : Vec k), .vector v ∈ s.holdings →
        ∀ w ∈ v.layers, w.2.Reads s.store (w.2.plain s.store)) ∧
      (∀ (c : Command) {k : Kind} (v : Vec k), .vector v ∈ (s.rest c).holdings →
        ∀ w ∈ v.layers, w.2.SameReadings s.store (s.step c).session.store) ∧
      ∀ (after : List Command) {k : Kind} (v : Vec k), s.Retains v after →
        ∀ w ∈ v.layers, w.2.SameReadings s.store (s.run after).store := by
  intro s l
  have h : s.Mirrors l := Mirrors.empty.run before
  refine ⟨h, h.step, ?_, ?_, ?_⟩
  · intro k v hv w hw
    exact ((h.sound hv).of_mem_layers hw).reads
  · intro c k v hv w hw
    exact h.sameReadings_step c hv hw
  · intro after k v hv w hw
    exact h.sameReadings_run after hv hw

/-- A block under a view is copied before it is written. -/
theorem run_mirrors_ledger_view_over_block :
    let x := Register.named "x"
    let y := Register.named "y"
    let s := empty.run [.vector x .int [1, 2, 3], .exclude y x 0]
    let after := [.set x x false .int 1 9]
    let v : Vec .int := .exclusion (.dense ⟨0⟩) 0 2
    s.Retains v after ∧ (∀ w ∈ v.layers, w.2.SameReadings s.store (s.run after).store) ∧
      v.elements (s.run after).store = [2, 3] ∧
      ((s.run after).value? x).bind (Value.vector? .int) = some (.dense ⟨1⟩) := by
  intro x y s after v
  have hv : .vector v ∈ (s.rest (.set x x false .int 1 9)).holdings :=
    Scene.mem_holdings_of_value? (r := y) rfl (List.mem_singleton.mpr rfl)
  have hretains : s.Retains v after := ⟨hv, trivial⟩
  obtain ⟨_, _, _, _, hsame⟩ :=
    run_mirrors_ledger [.vector x .int [1, 2, 3], .exclude y x 0]
  exact ⟨hretains, hsame after v hretains, by decide, rfl⟩

/-- After any commands, every vector in existence and every one behind it keeps the right sizes, can
be read just below its own size, and takes part in every operation as the plain vector of its
elements and attributes. -/
theorem run_vectors_act_as_plain (commands : List Command) :
    let s := Session.empty.run commands
    (∀ {k : Kind} (v : Vec k), .vector v ∈ s.holdings → ∀ w ∈ v.layers,
      w.2.Sound s.store ∧
        w.2.ActsAs s.store ⟨w.2.elements s.store, w.2.attributes s.store⟩ ∧
        (∀ i x, w.2.read s.store i = .ok x ↔ (w.2.elements s.store)[i]? = some x) ∧
        ∀ i, (∃ e, w.2.read s.store i = .error e) ↔ w.2.size s.store ≤ i) ∧
    ∀ {k : Kind},
      (∀ xs : List k.Elem, (Vec.ofList xs s.store).1.Reads (Vec.ofList xs s.store).2
        (Plain.ofList xs)) ∧
      (∀ x : k.Elem, (Vec.scalar x s.store).1.Reads (Vec.scalar x s.store).2
        (Plain.ofList [x])) ∧
      (∀ (n : Nat) (x : k.Elem), (Vec.replicate n x s.store).1.Reads
        (Vec.replicate n x s.store).2 (Plain.ofList (List.replicate n x))) ∧
      ∀ (p : Progression k) (stop : k.Elem) (n : Nat), p.length stop = .ok n →
        ∃ made, Vec.progression p stop s.store = .ok made ∧
          made.1.Reads made.2 (Plain.progression p n) := by
  intro s
  have h : s.Mirrors (Ledger.run Scene.empty commands) := Mirrors.empty.run commands
  refine ⟨?_, ?_, ?_, ?_, ?_⟩
  · intro k v hv w hw
    have hsound := (h.sound hv).of_mem_layers hw
    have hreads := hsound.reads
    have hacts := hsound.actsAs
    rw [hsound.plain_eq] at hreads hacts
    exact ⟨hsound, hacts, hreads.read_eq_ok_iff, hreads.read_fails_iff⟩
  · exact fun xs => (Vec.makes_ofList xs s.store).reads
  · exact fun x => (Vec.makes_scalar x s.store).reads
  · exact fun n x => (Vec.makes_ofList (List.replicate n x) s.store).reads
  · intro p stop n hn
    obtain ⟨made, hm, hmakes⟩ := Vec.progression_of_ok hn s.store
    exact ⟨made, hm, hmakes.reads⟩

/-- Positions below one and past the end gather missing elements. -/
theorem run_vectors_act_as_plain_gathered :
    let x := Register.named "x"
    let i := Register.named "i"
    let y := Register.named "y"
    let s := empty.run [.vector x .int [4, 5], .vector i .int [2, 0, 3], .gather y x i]
    let v : Vec .int := .subset (.dense ⟨0⟩) 2 (.dense ⟨1⟩)
    .vector v ∈ s.holdings ∧ v.elements s.store = [5, Kind.missingInt, Kind.missingInt] ∧
      v.ActsAs s.store ⟨v.elements s.store, v.attributes s.store⟩ := by
  intro x i y s v
  have hv : .vector v ∈ s.holdings :=
    Scene.mem_holdings_of_value? (r := y) rfl (List.mem_singleton.mpr rfl)
  obtain ⟨hlive, _⟩ := run_vectors_act_as_plain
    [.vector x .int [4, 5], .vector i .int [2, 0, 3], .gather y x i]
  obtain ⟨_, hacts, _⟩ := hlive v hv ⟨_, v⟩ List.mem_cons_self
  exact ⟨hv, by decide, hacts⟩

end Session

end Deferred
