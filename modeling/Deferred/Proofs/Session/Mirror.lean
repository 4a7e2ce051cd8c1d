import Deferred.Proofs.Holdings
import Deferred.Proofs.Objects
import Deferred.Proofs.Session.Ledger
import Deferred.Proofs.Value.Anchors
import Deferred.Proofs.Vector.Operations

/-!
# Sessions mirrored by ledgers

A ledger mirrors a session when its registers, and everything in existence behind them, hold the
plain vectors that the handles of the session stand for. What went out of existence may differ.
-/
set_option autoImplicit false

namespace Deferred

/-- A value with every handle in it replaced by the plain vector that it stands for. -/
def Value.plain (v : Value) (st : Store) : Value Plain := v.mapVectors fun w => w.plain st

def Node.plain (n : Expression) (st : Store) : Expression Plain := n.mapVectors fun w => w.plain st

def Fault.plain (e : Fault) (st : Store) : Fault (Value Plain) := e.mapVectors fun w => w.plain st

def Complaint.plain (st : Store) : Complaint → Complaint (Value Plain)
  | .fault e => .fault (e.plain st)
  | .unfit r => .unfit r

/-- What is behind an anchor is sound and stands for what the ledger has in the same place. -/
def Anchor.Agrees (st : Store) (o : Objects) (p : Objects (Value Plain)) : Anchor → Prop
  | vector v => v.Sound st
  | environment id => p.environment id = (o.environment id).map fun v => v.plain st
  | promise id => p.outcome? id = (o.outcome? id).map fun v => v.plain st

/-- The ledger has plain vectors wherever the session has handles in existence. -/
structure Session.Mirrors (s : Session) (l : Ledger) : Prop where
  registers_eq : l.registers = s.registers.map fun e => (e.1, e.2.plain s.store)
  environments_size : l.objects.environments.size = s.objects.environments.size
  outcomes_size : l.objects.outcomes.size = s.objects.outcomes.size
  closures_eq : l.objects.closures = s.objects.closures
  agrees : ∀ a ∈ s.holdings, a.Agrees s.store s.objects l.objects

/-- A step of a session and one of a ledger end alike, and the step changes no reading of a vector
in `rest`. -/
structure Step.Mirrors (rest : Session) (t : Step Session) (u : Step Ledger (Value Plain)) :
    Prop where
  session : t.session.Mirrors u.session
  complaint_eq : u.complaint = t.complaint.map (Complaint.plain t.session.store)
  keeps {k : Kind} (v : Vec k) : .vector v ∈ rest.holdings →
    ∀ a ∈ v.addresses, rest.store.Keeps t.session.store a.2

theorem lookup_map {ν ω : Type} (g : ν → ω) (es : List (Register × ν)) (r : Register) :
    (es.map fun e => (e.1, g e.2)).lookup r = (es.lookup r).map g := by
  induction es with
  | nil => rfl
  | cons e es ih =>
    obtain ⟨x, v⟩ := e
    simp only [List.map_cons, List.lookup_cons, ih]
    split <;> rfl

theorem mem_of_lookup {ν : Type} {es : List (Register × ν)} {r : Register} {v : ν}
    (h : es.lookup r = some v) : (r, v) ∈ es := by
  induction es with
  | nil => simp at h
  | cons e es ih =>
    obtain ⟨x, w⟩ := e
    rw [List.lookup_cons] at h
    split at h
    case h_1 hx =>
      obtain rfl := Option.some.inj h
      obtain rfl : r = x := by simpa using hx
      exact List.mem_cons_self
    case h_2 => exact List.mem_cons_of_mem _ (ih h)

namespace Scene

theorem mem_holdings_of_register {s : Scene} {e : Register × Value} (he : e ∈ s.registers)
    {a : Anchor} (ha : a ∈ e.2.anchors) : a ∈ s.holdings :=
  Objects.mem_holdings_of_root (List.mem_flatMap.mpr ⟨e, he, ha⟩)

theorem mem_holdings_of_value? {s : Scene} {r : Register} {v : Value} (h : s.value? r = some v)
    {a : Anchor} (ha : a ∈ v.anchors) : a ∈ s.holdings :=
  mem_holdings_of_register (mem_of_lookup h) ha

theorem mem_holdings_of_binding {s : Scene} {id : EnvironmentId}
    (hid : .environment id ∈ s.holdings) {e : Symbol × Value}
    (he : e ∈ (s.objects.environment id).bindings.entries) {a : Anchor} (ha : a ∈ e.2.anchors) :
    a ∈ s.holdings :=
  Objects.held_mem_holdings (e := .environment id) hid
    (Objects.mem_held_environment_iff.mpr (Or.inr ⟨e, he, ha⟩))

theorem mem_holdings_of_outcome? {s : Scene} {id : PromiseId} (hid : .promise id ∈ s.holdings)
    {v : Value} (hv : s.objects.outcome? id = some v) {a : Anchor} (ha : a ∈ v.anchors) :
    a ∈ s.holdings := by
  refine Objects.held_mem_holdings (e := .promise id) hid ?_
  rw [Objects.held, hv]
  exact ha

theorem mem_holdings_of_read {s : Scene} {r : Register} {a : Anchor}
    (ha : a ∈ (s.read r).anchors) : a ∈ s.holdings := by
  rw [read] at ha
  cases h : s.value? r with
  | none => simp [h, Value.anchors] at ha
  | some v => exact mem_holdings_of_value? h (by simpa only [h, Option.getD_some] using ha)

theorem mem_holdings_of_expression {s : Scene} {n : Node Register} :
    ∀ a ∈ Node.anchors (s.expression n), a ∈ s.holdings :=
  anchors_map (fun _ _ => mem_holdings_of_read) n

theorem value?_of_environment? {s : Scene} {r : Register} {id : EnvironmentId}
    (h : s.environment? r = some id) : s.value? r = some (.environment id) := by
  rw [environment?] at h
  split at h
  · next hv => rw [hv, Option.some.inj h]
  · contradiction

theorem mem_holdings_of_environment? {s : Scene} {r : Register} {id : EnvironmentId}
    (h : s.environment? r = some id) : .environment id ∈ s.holdings :=
  mem_holdings_of_value? (value?_of_environment? h) (by simp [Value.anchors])

theorem mem_holdings_of_scope {s : Scene} {scope : Option Register} :
    ∀ a ∈ EnvironmentId.anchors (scope.bind s.environment?), a ∈ s.holdings := by
  intro a ha
  cases hid : scope.bind s.environment? with
  | none => simp [hid, EnvironmentId.anchors] at ha
  | some id =>
    obtain ⟨r, _, hr⟩ := Option.bind_eq_some_iff.mp hid
    obtain rfl : a = .environment id := by simpa [hid, EnvironmentId.anchors] using ha
    exact mem_holdings_of_environment? hr

end Scene

namespace Session.Mirrors

variable {s : Session} {l : Ledger}

/-- If the registers still match and nothing comes into existence but what was or agrees (`N`), the
ledger still mirrors the session. -/
theorem of_change {sc : Scene} {l' : Ledger} {N : Anchor → Prop}
    (hregs : l'.registers = sc.registers.map fun e => (e.1, e.2.plain s.store))
    (henv : l'.objects.environments.size = sc.objects.environments.size)
    (hout : l'.objects.outcomes.size = sc.objects.outcomes.size)
    (hclo : l'.objects.closures = sc.objects.closures)
    (hagrees : ∀ a, a ∈ s.holdings ∨ N a → a.Agrees s.store sc.objects l'.objects)
    (hroots : ∀ a ∈ sc.registers.flatMap (·.2.anchors), a ∈ s.holdings ∨ N a)
    (hheld : ∀ e, ∀ a ∈ sc.objects.held e, a ∈ s.objects.held e ∨ a ∈ s.holdings ∨ N a)
    (hnew : ∀ e, N e.anchor → ∀ a ∈ sc.objects.held e, a ∈ s.holdings ∨ N a) :
    (s.withScene sc).Mirrors l' :=
  ⟨hregs, henv, hout, hclo,
    fun a ha => hagrees a (Objects.holdings_of_change hroots hheld hnew a ha)⟩

variable (h : s.Mirrors l)

include h

theorem value?_eq (r : Register) : l.value? r = (s.value? r).map fun v => v.plain s.store := by
  rw [Scene.value?, h.registers_eq]
  exact lookup_map _ s.registers r

theorem read_eq (r : Register) : l.read r = (s.read r).plain s.store := by
  rw [Scene.read, Scene.read, h.value?_eq]
  cases s.value? r <;> rfl

theorem read_eq_fun : l.read = fun r => (s.read r).plain s.store := funext h.read_eq

theorem expression_eq (n : Node Register) : l.expression n = (s.expression n).plain s.store := by
  rw [Scene.expression, h.read_eq_fun]
  exact (map_mapVectors _ _ n).symm

theorem environment?_eq (r : Register) : l.environment? r = s.environment? r := by
  rw [Scene.environment?, Scene.environment?, h.value?_eq]
  cases hv : s.value? r with
  | none => rfl
  | some v =>
    cases v with
    | list items => cases items <;> rfl
    | _ => rfl

theorem sound {k : Kind} {v : Vec k} (hv : .vector v ∈ s.holdings) : v.Sound s.store :=
  h.agrees _ hv

theorem environment_eq {id : EnvironmentId} (hid : .environment id ∈ s.holdings) :
    l.objects.environment id = (s.objects.environment id).map fun v => v.plain s.store :=
  h.agrees _ hid

theorem outcome?_eq {id : PromiseId} (hid : .promise id ∈ s.holdings) :
    l.objects.outcome? id = (s.objects.outcome? id).map fun v => v.plain s.store :=
  h.agrees _ hid

theorem drop (r : Register) : (s.drop r).Mirrors (l.drop r) := by
  refine of_change (N := fun _ => False) ?_ h.environments_size h.outcomes_size h.closures_eq ?_
    ?_ ?_ ?_
  · simp only [Scene.drop, h.registers_eq, List.filter_map]
    rfl
  · rintro a (ha | ha)
    · exact h.agrees a ha
    · contradiction
  · intro a ha
    obtain ⟨e, he, ha⟩ := List.mem_flatMap.mp ha
    exact Or.inl (Scene.mem_holdings_of_register (List.mem_filter.mp he).1 ha)
  · exact fun e a ha => Or.inl ha
  · exact fun e he => he.elim

theorem put (r : Register) {v : Value}
    (hv : ∀ a ∈ v.anchors, a ∈ s.holdings ∨ a.Agrees s.store s.objects l.objects ∧
      ∀ e, a = e.anchor → ∀ b ∈ s.objects.held e, b ∈ s.holdings) :
    (s.put r v).Mirrors (l.put r (v.plain s.store)) := by
  refine of_change (N := fun a => a.Agrees s.store s.objects l.objects ∧
    ∀ e, a = e.anchor → ∀ b ∈ s.objects.held e, b ∈ s.holdings) ?_
    h.environments_size h.outcomes_size h.closures_eq ?_ ?_ ?_ ?_
  · change _ :: (l.drop r).registers = _ :: (s.drop r).registers.map _
    rw [(h.drop r).registers_eq]
    rfl
  · rintro a (ha | ha)
    · exact h.agrees a ha
    · exact ha.1
  · intro a ha
    obtain ⟨e, he, ha⟩ := List.mem_flatMap.mp ha
    rcases List.mem_cons.mp he with rfl | he
    · exact hv a ha
    · exact Or.inl (Scene.mem_holdings_of_register (List.mem_filter.mp he).1 ha)
  · exact fun e a ha => Or.inl ha
  · exact fun e he a ha => Or.inl (he.2 e rfl a ha)

theorem put_held (r : Register) {v : Value} (hv : ∀ a ∈ v.anchors, a ∈ s.holdings) :
    (s.put r v).Mirrors (l.put r (v.plain s.store)) :=
  h.put r fun a ha => Or.inl (hv a ha)

theorem put_vector (r : Register) {k : Kind} {v : Vec k} (hv : v.Sound s.store) :
    (s.put r (.vector v)).Mirrors (l.putVector r (v.plain s.store)) := by
  refine h.put r fun a ha => Or.inr ?_
  obtain rfl : a = .vector v := by simpa [Value.anchors] using ha
  refine ⟨hv, fun e he => ?_⟩
  cases e <;> simp [Owner.anchor] at he

theorem withObjects {o : Objects} {p : Objects (Value Plain)}
    (henv : p.environments.size = o.environments.size)
    (hout : p.outcomes.size = o.outcomes.size) (hclo : p.closures = o.closures)
    (henvironment : ∀ id,
      l.objects.environment id = (s.objects.environment id).map (fun v => v.plain s.store) →
      p.environment id = (o.environment id).map fun v => v.plain s.store)
    (houtcome : ∀ id,
      l.objects.outcome? id = (s.objects.outcome? id).map (fun v => v.plain s.store) →
      p.outcome? id = (o.outcome? id).map fun v => v.plain s.store)
    (hheld : ∀ e, ∀ a ∈ o.held e, a ∈ s.objects.held e ∨ a ∈ s.holdings) :
    (s.withScene (s.toScene.withObjects o)).Mirrors (l.withObjects p) := by
  refine of_change (N := fun _ => False) h.registers_eq henv hout hclo ?_ ?_ ?_ ?_
  · rintro a (ha | ha)
    · cases a with
      | vector v => exact h.sound ha
      | environment id => exact henvironment id (h.environment_eq ha)
      | promise id => exact houtcome id (h.outcome?_eq ha)
    · contradiction
  · exact fun a ha => Or.inl (Objects.mem_holdings_of_root ha)
  · intro e a ha
    rcases hheld e a ha with ha | ha
    · exact Or.inl ha
    · exact Or.inr (Or.inl ha)
  · exact fun e he => he.elim

theorem plain_eq_of_keeps {st : Store}
    (hst : ∀ {k : Kind} (v : Vec k), .vector v ∈ s.holdings →
      ∀ a ∈ v.addresses, s.store.Keeps st a.2)
    {v : Value} (hv : ∀ a ∈ v.anchors, a ∈ s.holdings) : v.plain st = v.plain s.store := by
  refine Value.mapVectors_congr v fun w hw => ?_
  have hmem := hv _ hw
  exact ((h.sound hmem).keeps (hst w hmem)).2

theorem withStore {st : Store}
    (hst : ∀ {k : Kind} (v : Vec k), .vector v ∈ s.holdings →
      ∀ a ∈ v.addresses, s.store.Keeps st a.2) :
    (s.withStore st).Mirrors l := by
  refine ⟨?_, h.environments_size, h.outcomes_size, h.closures_eq, ?_⟩
  · rw [h.registers_eq]
    refine List.map_congr_left fun e he => ?_
    have hplain := h.plain_eq_of_keeps hst fun a ha => Scene.mem_holdings_of_register he ha
    exact congrArg (Prod.mk e.1) hplain.symm
  · intro a ha
    cases a with
    | vector v => exact ((h.sound ha).keeps (hst v ha)).1
    | environment id =>
      refine (h.environment_eq ha).trans (congrArg (Environment.mk · _) ?_)
      refine Bindings.map_congr fun e he => (h.plain_eq_of_keeps hst fun a ha' => ?_).symm
      exact Scene.mem_holdings_of_binding ha he ha'
    | promise id =>
      refine (h.outcome?_eq ha).trans ?_
      change _ = (s.objects.outcome? id).map fun v => v.plain st
      cases ho : s.objects.outcome? id with
      | none => rfl
      | some v =>
        refine congrArg some (h.plain_eq_of_keeps hst fun a ha' => ?_).symm
        exact Scene.mem_holdings_of_outcome? ha ho ha'

theorem putVector (r : Register) {k : Kind} {made : Vec k × Store} {p : Plain k}
    (hm : Vec.Makes s.store made p) : (s.putVector r made).Mirrors (l.putVector r p) := by
  have hstore : (s.withStore made.2).Mirrors l := h.withStore fun v _ a _ => hm.keeps a.2
  have hput := hstore.put_vector r hm.sound
  rwa [show made.1.plain (s.withStore made.2).store = p from hm.plain_eq] at hput

omit h in
theorem inScene {t : Step Scene} {u : Step Ledger (Value Plain)}
    (hs : (s.withScene t.session).Mirrors u.session)
    (hc : u.complaint = t.complaint.map (Complaint.plain s.store)) :
    (s.inScene t).Mirrors s u :=
  ⟨hs, hc, fun _ _ a _ => s.store.keeps_refl a.2⟩

omit h in
theorem done {s' : Session} {l' : Ledger} (h : s'.Mirrors l') (hst : s'.store = s.store) :
    (Step.done s').Mirrors s (Step.done l') :=
  ⟨h, rfl, fun _ _ a _ => hst ▸ s.store.keeps_refl a.2⟩

theorem unfit (r : Register) : (Step.unfit s r).Mirrors s (Step.unfit l r) :=
  ⟨h, rfl, fun _ _ a _ => s.store.keeps_refl a.2⟩

theorem failed (e : Fault) : (Step.failed s e).Mirrors s (Step.failed l (e.plain s.store)) :=
  ⟨h, rfl, fun _ _ a _ => s.store.keeps_refl a.2⟩

end Session.Mirrors

end Deferred
