import Deferred.Proofs.Session.Mirror

set_option autoImplicit false

namespace Deferred

namespace Listing

variable {ν ω : Type}

def map (g : ν → ω) : Listing ν → Listing ω
  | plain vs => plain (vs.map g)
  | labelled es => labelled (es.map fun e => ⟨e.label, g e.value⟩)

theorem lookup?_map (g : ν → ω) (items : Listing ν) (name : Symbol) :
    (items.map g).lookup? name = (items.lookup? name).map g := by
  cases items with
  | plain vs => rfl
  | labelled es =>
    simp only [map, lookup?, List.find?_map, Option.map_map]
    rfl

theorem mem_values_of_lookup? {items : Listing ν} {name : Symbol} {v : ν}
    (h : items.lookup? name = some v) : v ∈ items.values := by
  cases items with
  | plain vs => simp [lookup?] at h
  | labelled es =>
    obtain ⟨e, he, rfl⟩ := Option.map_eq_some_iff.mp h
    exact List.mem_map.mpr ⟨e, List.mem_of_find?_eq_some he, rfl⟩

end Listing

theorem Value.plain_promise (id : PromiseId) (n : Expression) (scope : Option EnvironmentId)
    (st : Store) : (promise id n scope).plain st = promise id (n.plain st) scope := rfl

theorem Value.plain_list (items : Listing Value) (st : Store) :
    (list items).plain st = list (items.map fun v => v.plain st) := by
  cases items with
  | plain vs =>
    rw [Value.plain, mapVectors, mapVectorsOfValues_eq]
    rfl
  | labelled es =>
    rw [Value.plain, mapVectors, mapVectorsOfEntries_eq]
    rfl

def Source.plain (st : Store) : Source → Source (Value Plain)
  | nothing => nothing
  | frame f => frame ⟨f.function, f.slots.map fun v => v.plain st⟩
  | list items => list (items.map fun v => v.plain st)
  | environment id => environment id

namespace Scene

variable {s : Scene} {ref : SourceRef} {source : Source} {name : Symbol} {v : Value}

theorem exists_of_find? (hs : s.source? ref = some source)
    (hv : source.find? s.objects name = some v) :
    (∃ r, s.read r = v) ∨
      (∃ r items, s.value? r = some (.list items) ∧ v ∈ items.values) ∨
      ∃ r id, s.value? r = some (.environment id) ∧
        ∃ e ∈ (s.objects.environment id).bindings.entries, e.2 = v := by
  cases ref with
  | nothing =>
    obtain rfl := Option.some.inj hs
    exact absurd hv.symm (Option.some_ne_none v)
  | frame function slots =>
    obtain rfl := Option.some.inj hs
    obtain ⟨e, he, rfl⟩ := Bindings.mem_of_find? hv
    obtain ⟨p, -, rfl⟩ := List.mem_map.mp (Bindings.mem_ofList he)
    exact Or.inl ⟨p.2, rfl⟩
  | held r =>
    rw [source?] at hs
    split at hs
    case h_1 items hr =>
      obtain rfl := Option.some.inj hs
      exact Or.inr (Or.inl ⟨r, items, hr, Listing.mem_values_of_lookup? hv⟩)
    case h_2 id hr =>
      obtain rfl := Option.some.inj hs
      exact Or.inr (Or.inr ⟨r, id, hr, Bindings.mem_of_find? hv⟩)
    case h_3 => contradiction

theorem mem_holdings_of_find? (hs : s.source? ref = some source)
    (hv : source.find? s.objects name = some v) {a : Anchor} (ha : a ∈ v.anchors) :
    a ∈ s.holdings := by
  rcases exists_of_find? hs hv with ⟨r, rfl⟩ | ⟨r, items, hr, hmem⟩ | ⟨r, id, hr, e, he, rfl⟩
  · exact mem_holdings_of_read ha
  · exact mem_holdings_of_value? hr (Value.mem_anchors_of_mem_values hmem ha)
  · have hid : .environment id ∈ s.holdings := mem_holdings_of_value? hr (by simp [Value.anchors])
    exact mem_holdings_of_binding hid he ha

end Scene

namespace Session.Mirrors

variable {s : Session} {l : Ledger} (h : s.Mirrors l)

include h

theorem share (target source : Register) :
    (s.inScene (s.share target source)).Mirrors s (l.share target source) := by
  rw [Scene.share, Scene.share, h.value?_eq]
  cases hv : s.value? source with
  | none => exact h.unfit source
  | some v =>
    exact inScene (h.put_held target fun a ha => Scene.mem_holdings_of_value? hv ha) rfl

theorem makeQuote (target : Register) (n : Node Register) :
    (s.inScene (s.makeQuote target n)).Mirrors s (l.makeQuote target n) := by
  rw [Scene.makeQuote, Scene.makeQuote, h.expression_eq]
  exact inScene (h.put_held target (v := .language _) Scene.mem_holdings_of_expression) rfl

theorem makeBundle (target : Register) (entries : List (Argument Register)) :
    (s.inScene (s.makeBundle target entries)).Mirrors s (l.makeBundle target entries) := by
  have hplain : Value.bundle (entries.map fun e => ⟨e.name, e.value.map l.read⟩) =
      (Value.bundle (entries.map fun e => ⟨e.name, e.value.map s.read⟩)).plain s.store := by
    rw [Value.plain, Value.mapVectors, mapVectorsOfBundle_eq, List.map_map]
    refine congrArg Value.bundle (List.map_congr_left fun e _ => ?_)
    simp only [h.read_eq_fun, Function.comp_apply, Option.map_map]
    rfl
  rw [Scene.makeBundle, Scene.makeBundle, hplain]
  refine inScene (h.put_held target fun a ha => ?_) rfl
  obtain ⟨e, he, v, hv, ha⟩ := mem_anchorsOfBundle_iff.mp ha
  obtain ⟨d, _, rfl⟩ := List.mem_map.mp he
  obtain ⟨r, _, rfl⟩ := Option.map_eq_some_iff.mp hv
  exact Scene.mem_holdings_of_read ha

theorem listing_map_read (items : Listing Register) :
    items.map l.read = (items.map s.read).map fun v => v.plain s.store := by
  rw [h.read_eq_fun]
  cases items <;> simp [Listing.map]

theorem makeList (target : Register) (items : Listing Register) :
    (s.inScene (s.makeList target items)).Mirrors s (l.makeList target items) := by
  have hput : (s.put target (.list (items.map s.read))).Mirrors
      (l.put target (.list (items.map l.read))) := by
    rw [h.listing_map_read, ← Value.plain_list]
    refine h.put_held target fun a ha => ?_
    cases items with
    | plain rs =>
      simp only [Listing.map, Value.anchors, anchorsOfValues_eq, List.mem_flatMap,
        List.mem_map] at ha
      obtain ⟨_, ⟨r, _, rfl⟩, ha⟩ := ha
      exact Scene.mem_holdings_of_read ha
    | labelled es =>
      simp only [Listing.map, Value.anchors, anchorsOfEntries_eq, List.mem_flatMap,
        List.mem_map] at ha
      obtain ⟨_, ⟨e, _, rfl⟩, ha⟩ := ha
      exact Scene.mem_holdings_of_read ha
  cases items <;> exact inScene hput rfl

theorem fetch (target environment : Register) (name : Symbol) :
    (s.inScene (s.fetch target environment name)).Mirrors s (l.fetch target environment name) := by
  rw [Scene.fetch, Scene.fetch, h.environment?_eq]
  cases hid : s.environment? environment with
  | none => exact h.unfit environment
  | some id =>
    have hmem := Scene.mem_holdings_of_environment? hid
    simp only [h.environment_eq hmem, Environment.map, Bindings.find?_map]
    cases hv : (s.objects.environment id).bindings.find? name with
    | none => exact inScene h rfl
    | some v =>
      refine inScene (h.put_held target fun a ha => ?_) rfl
      obtain ⟨e, he, rfl⟩ := Bindings.mem_of_find? hv
      exact Scene.mem_holdings_of_binding hmem he ha

theorem define (environment : Register) (name : Symbol) (value : Register) :
    (s.inScene (s.define environment name value)).Mirrors s (l.define environment name value) := by
  rw [Scene.define, Scene.define, h.environment?_eq, h.read_eq]
  cases hid : s.environment? environment with
  | none => exact h.unfit environment
  | some id =>
    refine inScene (h.withObjects ?_ h.outcomes_size h.closures_eq ?_ (fun _ ho => ho) ?_) rfl
    · simp only [Objects.define, Array.size_modify, h.environments_size]
    · intro id' he
      rw [Objects.environment_define, Objects.environment_define, h.environments_size, he]
      split
      · simp only [Environment.map, Bindings.insert_map]
      · rfl
    · intro e a ha
      rcases Objects.mem_held_of_define ha with ha | ha
      · exact Or.inl ha
      · exact Or.inr (Scene.mem_holdings_of_read ha)

theorem fulfil (promise value : Register) :
    (s.inScene (s.fulfil promise value)).Mirrors s (l.fulfil promise value) := by
  rw [Scene.fulfil, Scene.fulfil, h.value?_eq, h.read_eq]
  cases hv : s.value? promise with
  | none => exact h.unfit promise
  | some v =>
    cases v with
    | promise id n scope =>
      have hmem : .promise id ∈ s.holdings :=
        Scene.mem_holdings_of_value? hv (by simp [Value.anchors])
      have hout := h.outcome?_eq hmem
      simp only [Option.map_some, Value.plain_promise]
      cases ho : s.objects.outcome? id with
      | some w =>
        simp only [Objects.fulfil, hout, ho, Option.map_some]
        exact h.failed (.forcedTwice n)
      | none =>
        have hl : l.objects.outcome? id = none := by rw [hout, ho]; rfl
        have hso := Objects.fulfil_of_none ho (s.read value)
        have hlo := Objects.fulfil_of_none hl ((s.read value).plain s.store)
        simp only [hso, hlo]
        refine inScene (h.withObjects h.environments_size ?_ h.closures_eq (fun _ he => he) ?_ ?_)
          rfl
        · simp only [Array.size_setIfInBounds, h.outcomes_size]
        · intro id' ho'
          rw [Objects.outcome?_fulfil hso, Objects.outcome?_fulfil hlo, h.outcomes_size, ho']
          split <;> rfl
        · intro e a ha
          rcases Objects.mem_held_of_fulfil hso ha with ha | ha
          · exact Or.inl ha
          · exact Or.inr (Scene.mem_holdings_of_read ha)
    | list items => cases items <;> exact h.unfit promise
    | _ => exact h.unfit promise

theorem newPromise (n : Expression) (m : Expression Plain) (scope : Option EnvironmentId) :
    (s.withScene (s.toScene.withObjects (s.objects.newPromise n scope).2)).Mirrors
      (l.withObjects (l.objects.newPromise m scope).2) := by
  refine h.withObjects h.environments_size ?_ h.closures_eq (fun _ he => he) ?_ ?_
  · simp only [Objects.newPromise, Array.size_push, h.outcomes_size]
  · intro id ho
    rw [Objects.outcome?_newPromise, Objects.outcome?_newPromise, ho]
  · intro e a ha
    rw [Objects.held_newPromise] at ha
    exact Or.inl ha

theorem makePromise (target : Register) (n : Node Register) (scope : Option Register) :
    (s.inScene (s.makePromise target n scope)).Mirrors s (l.makePromise target n scope) := by
  have hscope : scope.bind l.environment? = scope.bind s.environment? := by
    rw [show l.environment? = s.environment? from funext h.environment?_eq]
  have hobjects := h.newPromise (s.expression n) (l.expression n) (scope.bind s.environment?)
  have hvalue : (l.objects.newPromise (l.expression n) (scope.bind s.environment?)).1 =
      (s.objects.newPromise (s.expression n) (scope.bind s.environment?)).1.plain s.store := by
    rw [Objects.newPromise, Objects.newPromise, Value.plain_promise, h.outcomes_size,
      h.expression_eq]
  have hnone := s.objects.outcome?_newPromise_self (s.expression n) (scope.bind s.environment?)
  have hnone' := l.objects.outcome?_newPromise_self (l.expression n) (scope.bind s.environment?)
  rw [h.outcomes_size] at hnone'
  rw [Scene.makePromise, Scene.makePromise, hscope, Scene.putObject, Scene.putObject, hvalue]
  refine inScene (hobjects.put target fun a ha => ?_) rfl
  rcases List.mem_cons.mp ha with rfl | ha
  · refine Or.inr ⟨?_, fun e he b hb => ?_⟩
    · exact hnone'.trans (congrArg (Option.map _) hnone).symm
    · cases e with
      | environment id => simp [Owner.anchor] at he
      | promise id =>
        obtain rfl : _ = id := by simpa [Owner.anchor] using he
        have hself := s.objects.held_newPromise_self (s.expression n) (scope.bind s.environment?)
        exact absurd (hself ▸ hb) List.not_mem_nil
  · rcases List.mem_append.mp ha with ha | ha
    · exact Or.inl (Scene.mem_holdings_of_expression (n := n) a ha)
    · exact Or.inl (Scene.mem_holdings_of_scope a ha)

theorem newEnvironment {standing : Standing EnvironmentId}
    (hs : ∀ a ∈ EnvironmentId.anchors standing.parent, a ∈ s.holdings) :
    (s.withScene (s.toScene.withObjects (s.objects.newEnvironment standing).2)).Mirrors
      (l.withObjects (l.objects.newEnvironment standing).2) := by
  refine h.withObjects ?_ h.outcomes_size h.closures_eq ?_ (fun _ ho => ho) ?_
  · simp only [Objects.newEnvironment, Array.size_push, h.environments_size]
  · intro id he
    rw [Objects.environment_newEnvironment, Objects.environment_newEnvironment,
      h.environments_size, he]
    split <;> rfl
  · intro e a ha
    rcases Objects.mem_held_of_newEnvironment ha with ha | ha
    · exact Or.inl ha
    · exact Or.inr (hs a ha)

theorem makeEnvironment (target : Register) (standing : Standing Register) :
    (s.inScene (s.makeEnvironment target standing)).Mirrors s
      (l.makeEnvironment target standing) := by
  have hfind : l.environment? = s.environment? := funext h.environment?_eq
  have hparent : ∀ t : Scene, ∀ a ∈ EnvironmentId.anchors (standing.resolve t.environment?).parent,
      a ∈ t.holdings := by
    intro t a ha
    cases standing with
    | global => simp [Standing.resolve, Standing.parent, EnvironmentId.anchors] at ha
    | ordinary parent => exact Scene.mem_holdings_of_scope a ha
  have hobjects := h.newEnvironment (hparent s.toScene)
  refine inScene ?_ rfl
  change Session.Mirrors _
    ((l.withObjects (l.objects.newEnvironment (standing.resolve l.environment?)).2).put target
      (.environment ⟨l.objects.environments.size⟩))
  rw [hfind, h.environments_size]
  refine hobjects.put target (v := .environment ⟨s.objects.environments.size⟩) fun a ha => ?_
  obtain rfl : a = .environment ⟨s.objects.environments.size⟩ := by
    simpa [Value.anchors] using ha
  refine Or.inr ⟨?_, fun e he b hb => ?_⟩
  · change (l.objects.newEnvironment (standing.resolve s.environment?)).2.environment _ =
      ((s.objects.newEnvironment (standing.resolve s.environment?)).2.environment _).map _
    rw [Objects.environment_newEnvironment, Objects.environment_newEnvironment,
      if_pos h.environments_size.symm, if_pos rfl]
    rfl
  · cases e with
    | promise id => simp [Owner.anchor] at he
    | environment id =>
      obtain rfl : _ = id := by simpa [Owner.anchor] using he
      have hself := s.objects.held_newEnvironment_self (standing.resolve s.environment?)
      exact hparent _ b (hself ▸ hb)

theorem makeClosure (target : Register) (formals : List (Formal (Node Register)))
    (body : Node Register) (scope : Register) :
    (s.inScene (s.makeClosure target formals body scope)).Mirrors s
      (l.makeClosure target formals body scope) := by
  rw [Scene.makeClosure, Scene.makeClosure, h.environment?_eq]
  cases hid : s.environment? scope with
  | none => exact h.unfit scope
  | some id =>
    have hobjects := h.withObjects
      (o := { s.objects with closures := s.objects.closures + 1 })
      (p := { l.objects with closures := l.objects.closures + 1 })
      h.environments_size h.outcomes_size (by rw [h.closures_eq]) (fun _ he => he)
      (fun _ ho => ho) (fun e a ha => Or.inl ha)
    have hexpr : l.expression = fun n => (s.expression n).plain s.store :=
      funext h.expression_eq
    have hformals : (formals.map fun f => ⟨f.name, f.default.map l.expression⟩) =
        mapVectorsOfFormals (fun w => w.plain s.store)
          (formals.map fun f => ⟨f.name, f.default.map s.expression⟩) := by
      rw [mapVectorsOfFormals_eq, List.map_map]
      refine List.map_congr_left fun f _ => ?_
      simp only [hexpr, Function.comp_apply, Option.map_map]
      rfl
    refine inScene ?_ rfl
    rw [hformals, h.expression_eq]
    simp only [Scene.putObject, Step.done, Objects.newClosure, h.closures_eq] at hobjects ⊢
    refine hobjects.put_held target (v := .closure _ _ _ _) fun a ha => ?_
    rcases List.mem_append.mp ha with ha | ha
    · rcases List.mem_append.mp ha with ha | ha
      · obtain ⟨f, hf, n, hn, ha⟩ := mem_anchorsOfFormals_iff.mp ha
        obtain ⟨g, _, rfl⟩ := List.mem_map.mp hf
        obtain ⟨m, _, rfl⟩ := Option.map_eq_some_iff.mp hn
        exact Scene.mem_holdings_of_expression (n := m) a ha
      · exact Scene.mem_holdings_of_expression (n := body) a ha
    · obtain rfl : a = .environment id := List.mem_singleton.mp ha
      exact Scene.mem_holdings_of_environment? (r := scope) hid

theorem frame_eq (function : Option Symbol) (slots : List (Symbol × Register)) :
    Source.frame (l.frame function slots) =
      (Source.frame (s.frame function slots)).plain s.store := by
  have hslots : (slots.map fun p => (p.1, l.read p.2)) =
      (slots.map fun p => (p.1, s.read p.2)).map fun e => (e.1, e.2.plain s.store) := by
    rw [List.map_map]
    refine List.map_congr_left fun p _ => ?_
    rw [h.read_eq]
    rfl
  rw [Scene.frame, hslots, Bindings.ofList_map fun v : Value => v.plain s.store]
  rfl

theorem source?_eq (ref : SourceRef) :
    l.source? ref = (s.source? ref).map (Source.plain s.store) := by
  cases ref with
  | nothing => rfl
  | frame function slots => exact congrArg some (h.frame_eq function slots)
  | held r =>
    rw [Scene.source?, Scene.source?, h.value?_eq]
    cases s.value? r with
    | none => rfl
    | some v =>
      cases v with
      | list items =>
        simp only [Option.map_some, Value.plain_list]
        rfl
      | _ => rfl

theorem find?_eq {ref : SourceRef} {source : Source} (hs : s.source? ref = some source) :
    (source.plain s.store).find? l.objects =
      mapLookup (fun w => w.plain s.store) (source.find? s.objects) := by
  cases ref with
  | nothing =>
    obtain rfl := Option.some.inj hs
    rfl
  | frame function slots =>
    obtain rfl := Option.some.inj hs
    exact funext fun name => Bindings.find?_map _ _ name
  | held r =>
    rw [Scene.source?] at hs
    split at hs
    case h_1 items hr =>
      obtain rfl := Option.some.inj hs
      exact funext fun name => Listing.lookup?_map _ items name
    case h_2 id hr =>
      obtain rfl := Option.some.inj hs
      have hmem : .environment id ∈ s.holdings :=
        Scene.mem_holdings_of_value? hr (by simp [Value.anchors])
      funext name
      change (l.objects.environment id).bindings.find? name = _
      rw [h.environment_eq hmem]
      exact Bindings.find?_map _ _ name
    case h_3 => contradiction

theorem substitute (target : Register) (ref : SourceRef) (n : Node Register) (limit : Nat) :
    (s.inScene (s.substitute target ref n limit)).Mirrors s (l.substitute target ref n limit) := by
  rw [Scene.substitute, Scene.substitute, h.source?_eq, h.expression_eq]
  cases hs : s.source? ref with
  | none => exact h.unfit target
  | some source =>
    have hheld : ∀ name v, source.find? s.objects name = some v → ∀ a ∈ v.anchors,
        a ∈ s.holdings := fun name v hv a ha => Scene.mem_holdings_of_find? hs hv ha
    have happly := apply_mapVectors (fun w => w.plain s.store) (s := ⟨source, limit⟩)
      (t := ⟨source.plain s.store, limit⟩) rfl (h.find?_eq hs) (s.expression n)
    have hgraft : ∀ t, (Substitution.apply ⟨source, limit⟩ s.objects (s.expression n)).1 = .ok t →
        ∀ a ∈ Node.anchors t, a ∈ s.holdings := by
      intro t ht
      rw [← ((Substitution.apply_eq_ok_iff _ _ _ t).mp ht).2]
      exact anchors_graft hheld _ Scene.mem_holdings_of_expression
    simp only [Option.map_some, Substitution.applyValue, Node.plain, happly]
    cases ht : (Substitution.apply ⟨source, limit⟩ s.objects (s.expression n)).1 with
    | error e => exact ⟨h, rfl, fun _ _ a _ => s.store.keeps_refl a.2⟩
    | ok t =>
      simp only [Except.map, Value.ofExpression_mapVectors]
      refine inScene (h.put_held target fun a ha => hgraft t ht a ?_) rfl
      rwa [Value.anchors_ofExpression] at ha

end Session.Mirrors

end Deferred
