import Deferred.Proofs.Value.Map

set_option autoImplicit false

namespace Deferred

namespace Bindings

variable {ν ω : Type}

def map (g : ν → ω) (b : Bindings ν) : Bindings ω :=
  ⟨b.entries.map fun e => (e.1, g e.2), by
    rw [List.map_map]
    exact b.nodup⟩

theorem find?_map (g : ν → ω) (b : Bindings ν) (name : Symbol) :
    (b.map g).find? name = (b.find? name).map g := by
  simp only [find?, map, List.find?_map, Option.map_map]
  rfl

theorem names_map (g : ν → ω) (b : Bindings ν) : (b.map g).names = b.names := by
  rw [names, map, List.map_map]
  rfl

theorem insert_map (g : ν → ω) (b : Bindings ν) (name : Symbol) (v : ν) :
    (b.map g).insert name (g v) = (b.insert name v).map g := by
  refine ext_find? (by simp only [names_insert, names_map]) fun other => ?_
  simp only [find?_insert, find?_map]
  split <;> rfl

theorem ofList_map (g : ν → ω) (es : List (Symbol × ν)) :
    ofList (es.map fun e => (e.1, g e.2)) = (ofList es).map g := by
  have hfold : ∀ (es : List (Symbol × ν)) (b : Bindings ν),
      (es.map fun e => (e.1, g e.2)).foldl (fun b e => b.insert e.1 e.2) (b.map g) =
        (es.foldl (fun b e => b.insert e.1 e.2) b).map g := by
    intro es
    induction es with
    | nil => exact fun b => rfl
    | cons e es ih =>
      intro b
      rw [List.map_cons, List.foldl_cons, List.foldl_cons, insert_map, ih]
  exact hfold es empty

theorem map_congr {g g' : ν → ω} {b : Bindings ν} (h : ∀ e ∈ b.entries, g e.2 = g' e.2) :
    b.map g = b.map g' := by
  refine ext_find? (by rw [names_map, names_map]) fun name => ?_
  rw [find?_map, find?_map]
  exact Option.map_congr fun v hv => h (name, v) (mem_entries_iff.2 hv)

theorem mem_insert {name : Symbol} {v : ν} {b : Bindings ν} {e : Symbol × ν}
    (h : e ∈ (b.insert name v).entries) : e = (name, v) ∨ e ∈ b.entries := by
  rw [mem_entries_iff, find?_insert] at h
  split at h
  next hname => exact Or.inl (Prod.ext hname.symm (Option.some.inj h).symm)
  next => exact Or.inr (mem_entries_iff.2 h)

theorem mem_ofList {es : List (Symbol × ν)} {e : Symbol × ν} (h : e ∈ (ofList es).entries) :
    e ∈ es := by
  have hfold : ∀ (ds : List (Symbol × ν)) (b : Bindings ν),
      (∀ d ∈ b.entries, d ∈ es) → (∀ d ∈ ds, d ∈ es) →
      ∀ d ∈ (ds.foldl (fun b d => b.insert d.1 d.2) b).entries, d ∈ es := by
    intro ds
    induction ds with
    | nil => exact fun b hb _ => hb
    | cons d ds ih =>
      intro b hb hds
      refine ih (b.insert d.1 d.2) ?_ fun c hc => hds c (List.mem_cons_of_mem _ hc)
      intro c hc
      rcases mem_insert hc with rfl | hc
      · exact hds d List.mem_cons_self
      · exact hb c hc
  exact hfold es empty (by simp [empty]) (fun d hd => hd) e h

theorem mem_of_find? {b : Bindings ν} {name : Symbol} {v : ν} (h : b.find? name = some v) :
    ∃ e ∈ b.entries, e.2 = v := ⟨(name, v), mem_entries_iff.2 h, rfl⟩

end Bindings

def Environment.map {ν ω : Type} (g : ν → ω) (e : Environment ν) : Environment ω :=
  ⟨e.bindings.map g, e.standing⟩

namespace Objects

variable {ν : Type}

theorem environment_newEnvironment (o : Objects ν) (standing : Standing EnvironmentId)
    (id : EnvironmentId) :
    (o.newEnvironment standing).2.environment id =
      if id.index = o.environments.size then ⟨Bindings.empty, standing⟩ else o.environment id := by
  simp only [newEnvironment, environment, Array.getElem?_push]
  split <;> simp_all

theorem environment_define (o : Objects ν) (id id' : EnvironmentId) (name : Symbol) (v : ν) :
    (o.define id name v).environment id' =
      if id.index = id'.index ∧ id'.index < o.environments.size then
        { o.environment id' with bindings := (o.environment id').bindings.insert name v }
      else o.environment id' := by
  simp only [define, environment, Array.getElem?_modify]
  by_cases hlt : id'.index < o.environments.size
  · by_cases hid : id.index = id'.index
    · simp [hid, hlt]
    · simp [hid, hlt]
  · simp [hlt]

theorem fulfil_of_none {o : Objects ν} {id : PromiseId} (h : o.outcome? id = none) (v : ν) :
    o.fulfil id v =
      some { o with outcomes := o.outcomes.setIfInBounds id.index (some v) } := by
  simp only [fulfil, h]

theorem outcome?_fulfil {o o' : Objects ν} {id : PromiseId} {v : ν} (h : o.fulfil id v = some o')
    (id' : PromiseId) :
    o'.outcome? id' =
      if id.index = id'.index ∧ id'.index < o.outcomes.size then some v else o.outcome? id' := by
  unfold fulfil at h
  split at h
  · contradiction
  · obtain rfl := Option.some.inj h
    simp only [outcome?, Array.getElem?_setIfInBounds]
    by_cases hlt : id'.index < o.outcomes.size
    · by_cases hid : id.index = id'.index
      · simp [hid, hlt]
      · simp [hid]
    · by_cases hid : id.index = id'.index
      · simp [hid, hlt]
      · simp [hid, hlt]

theorem outcome?_newPromise {V : Kind → Type} (o : Objects (Value V)) (n : Expression V)
    (scope : Option EnvironmentId) (id : PromiseId) :
    (o.newPromise n scope).2.outcome? id = o.outcome? id := by
  simp only [newPromise, outcome?, Array.getElem?_push]
  split <;> simp_all

theorem outcome?_newPromise_self {V : Kind → Type} (o : Objects (Value V)) (n : Expression V)
    (scope : Option EnvironmentId) :
    (o.newPromise n scope).2.outcome? ⟨o.outcomes.size⟩ = none := by
  simp [newPromise, outcome?]

theorem mem_held_environment_iff {o : Objects} {id : EnvironmentId} {a : Anchor} :
    a ∈ o.held (.environment id) ↔
      a ∈ EnvironmentId.anchors (o.environment id).parent ∨
        ∃ e ∈ (o.environment id).bindings.entries, a ∈ e.2.anchors := by
  simp [held]

theorem held_newEnvironment_self (o : Objects) (standing : Standing EnvironmentId) :
    (o.newEnvironment standing).2.held (.environment (o.newEnvironment standing).1) =
      EnvironmentId.anchors standing.parent := by
  have hid : (o.newEnvironment standing).1.index = o.environments.size := rfl
  rw [held, environment_newEnvironment, if_pos hid]
  simp [Bindings.empty, Environment.parent]

theorem mem_held_of_newEnvironment {o : Objects} {standing : Standing EnvironmentId} {e : Owner}
    {a : Anchor} (h : a ∈ (o.newEnvironment standing).2.held e) :
    a ∈ o.held e ∨ a ∈ EnvironmentId.anchors standing.parent := by
  cases e with
  | promise id => exact Or.inl h
  | environment id =>
    rw [mem_held_environment_iff, environment_newEnvironment] at h
    split at h
    · right
      simpa [Bindings.empty, Environment.parent] using h
    · exact Or.inl (mem_held_environment_iff.mpr h)

theorem mem_held_of_define {o : Objects} {id : EnvironmentId} {name : Symbol} {v : Value}
    {e : Owner} {a : Anchor} (h : a ∈ (o.define id name v).held e) :
    a ∈ o.held e ∨ a ∈ v.anchors := by
  cases e with
  | promise id => exact Or.inl h
  | environment id' =>
    rw [mem_held_environment_iff, environment_define] at h
    rw [mem_held_environment_iff]
    split at h
    · rcases h with h | ⟨e, he, ha⟩
      · exact Or.inl (Or.inl h)
      · rcases Bindings.mem_insert he with rfl | he
        · exact Or.inr ha
        · exact Or.inl (Or.inr ⟨e, he, ha⟩)
    · exact Or.inl h

theorem mem_held_of_fulfil {o o' : Objects} {id : PromiseId} {v : Value}
    (hf : o.fulfil id v = some o') {e : Owner} {a : Anchor} (h : a ∈ o'.held e) :
    a ∈ o.held e ∨ a ∈ v.anchors := by
  cases e with
  | environment id' =>
    unfold fulfil at hf
    split at hf
    · contradiction
    · obtain rfl := Option.some.inj hf
      exact Or.inl h
  | promise id' =>
    rw [held, outcome?_fulfil hf] at h
    split at h
    · exact Or.inr h
    · exact Or.inl h

theorem held_newPromise (o : Objects) (n : Expression) (scope : Option EnvironmentId)
    (e : Owner) : (o.newPromise n scope).2.held e = o.held e := by
  cases e with
  | environment id => rfl
  | promise id => rw [held, held, outcome?_newPromise]

theorem held_newPromise_self (o : Objects) (n : Expression) (scope : Option EnvironmentId) :
    (o.newPromise n scope).2.held (.promise ⟨o.outcomes.size⟩) = [] := by
  rw [held, outcome?_newPromise_self]
  rfl

end Objects

end Deferred
