import Deferred.Proofs.Session.Origins
import Deferred.Proofs.Session.VectorStep

set_option autoImplicit false

namespace Deferred

variable {Q : Value → Prop}

namespace Value

def isMade : Value → Bool
  | promise _ _ _ => true
  | closure _ _ _ _ => true
  | _ => false

/-- The promises and closures in a value, at whatever depth, have a property. -/
def MadeWith (Q : Value → Prop) (v : Value) : Prop := ∀ w, w.isMade = true → w.PartOf v → Q w

namespace MadeWith

variable {v w : Value}

theorem of_partOf (h : v.MadeWith Q) (hw : w.PartOf v) : w.MadeWith Q :=
  fun u hu hp => h u hu (hp.trans hw)

theorem of_children (hv : v.isMade = true → Q v) (hc : ∀ c ∈ v.children, c.MadeWith Q) :
    v.MadeWith Q := by
  intro w hw hp
  rcases partOf_iff.1 hp with rfl | ⟨c, hmem, hp⟩
  · exact hv hw
  · exact hc c hmem w hw hp

theorem of_unmade (hv : v.isMade = false) (hc : ∀ c ∈ v.children, c.MadeWith Q) : v.MadeWith Q :=
  of_children (fun h => absurd (h.symm.trans hv) Bool.noConfusion) hc

theorem of_childless (hv : v.isMade = false) (hc : v.children = []) : v.MadeWith Q :=
  of_unmade hv fun _ hmem => absurd (hc ▸ hmem) List.not_mem_nil

end MadeWith

end Value

namespace Scene

/-- The promises and closures that a scene holds have a property. -/
structure MadeWith (Q : Value → Prop) (s : Scene) : Prop where
  registers : ∀ e ∈ s.registers, e.2.MadeWith Q
  bindings : ∀ id, ∀ e ∈ (s.objects.environment id).bindings.entries, e.2.MadeWith Q
  outcomes : ∀ id v, s.objects.outcome? id = some v → v.MadeWith Q

theorem madeWith_iff {s : Scene} :
    s.MadeWith Q ↔ ∀ w : Value, w.isMade = true → s.Holds w → Q w := by
  constructor
  · intro h w hw hheld
    cases hheld with
    | register mem part => exact h.registers _ mem w hw part
    | binding mem part => exact h.bindings _ _ mem w hw part
    | outcome fulfilled part => exact h.outcomes _ _ fulfilled w hw part
  · intro h
    exact ⟨fun e he w hw hp => h w hw (.register he hp),
      fun id e he w hw hp => h w hw (.binding he hp),
      fun id v hv w hw hp => h w hw (.outcome hv hp)⟩

/-- The promise or the closure that a command makes. -/
def made? (s : Scene) : Command → Option Value
  | .promise _ n scope =>
    some (.promise ⟨s.objects.outcomes.size⟩ (s.expression n) (scope.bind s.environment?))
  | .closure _ formals body scope =>
    (s.environment? scope).map fun id =>
      .closure ⟨s.objects.closures⟩
        (formals.map fun f => ⟨f.name, f.default.map s.expression⟩) (s.expression body) id
  | _ => none

namespace MadeWith

variable {s : Scene} (h : s.MadeWith Q)

include h

theorem value? {r : Register} {v : Value} (hv : s.value? r = some v) : v.MadeWith Q :=
  h.registers _ (mem_of_lookup hv)

theorem read (r : Register) : (s.read r).MadeWith Q := by
  rw [Scene.read]
  cases hv : s.value? r with
  | none => exact .of_childless rfl rfl
  | some v => exact h.value? hv

theorem constants_expression (n : Node Register) :
    ∀ c ∈ (s.expression n).constants, c.MadeWith Q := by
  intro c hc
  rw [expression, Node.constants_map] at hc
  obtain ⟨r, -, rfl⟩ := List.mem_map.1 hc
  exact h.read r

theorem find? {ref : SourceRef} {source : Source} (hs : s.source? ref = some source)
    {name : Symbol} {v : Value} (hv : source.find? s.objects name = some v) : v.MadeWith Q := by
  rcases exists_of_find? hs hv with ⟨r, rfl⟩ | ⟨r, items, hr, hmem⟩ | ⟨r, id, hr, e, he, rfl⟩
  · exact h.read r
  · exact (h.value? hr).of_partOf (Value.partOf_of_mem_children hmem)
  · exact h.bindings id e he

theorem drop (r : Register) : (s.drop r).MadeWith Q :=
  { h with registers := fun e he => h.registers e (List.mem_filter.1 he).1 }

theorem put (r : Register) {v : Value} (hv : v.MadeWith Q) : (s.put r v).MadeWith Q :=
  { h with
    registers := fun e he => by
      rcases List.mem_cons.1 he with rfl | he
      · exact hv
      · exact (h.drop r).registers e he }

theorem withObjects {o : Objects}
    (hbindings : ∀ id, ∀ e ∈ (o.environment id).bindings.entries, e.2.MadeWith Q)
    (houtcomes : ∀ id v, o.outcome? id = some v → v.MadeWith Q) : (s.withObjects o).MadeWith Q :=
  ⟨h.registers, hbindings, houtcomes⟩

theorem revectored {t : Scene} (ht : s.Revectored t) : t.MadeWith Q := by
  induction ht with
  | refl => exact h
  | drop _ r ih => exact ih.drop r
  | put _ r v ih => exact ih.put r (.of_childless rfl rfl)

theorem share (target source : Register) : (s.share target source).session.MadeWith Q := by
  rw [Scene.share]
  cases hv : s.value? source with
  | none => exact h
  | some v => exact h.put target (h.value? hv)

theorem makeQuote (target : Register) (n : Node Register) :
    (s.makeQuote target n).session.MadeWith Q :=
  h.put target (.of_unmade rfl (h.constants_expression n))

theorem makePromise (target : Register) (n : Node Register) (scope : Option Register)
    (hnew : Q (.promise ⟨s.objects.outcomes.size⟩ (s.expression n) (scope.bind s.environment?))) :
    (s.makePromise target n scope).session.MadeWith Q := by
  have hobjects := h.withObjects
    (o := (s.objects.newPromise (s.expression n) (scope.bind s.environment?)).2) h.bindings
    fun id v hv => h.outcomes id v (Objects.outcome?_newPromise s.objects _ _ id ▸ hv)
  exact hobjects.put target (.of_children (fun _ => hnew) (h.constants_expression n))

theorem fulfil (promise value : Register) : (s.fulfil promise value).session.MadeWith Q := by
  rw [Scene.fulfil]
  split
  case h_2 => exact h
  case h_1 id n scope hp =>
    cases ho : s.objects.fulfil id (s.read value) with
    | none => exact h
    | some o =>
      have hsame := Objects.sameButOutcomes_of_fulfil ho
      refine h.withObjects (fun id e he => ?_) fun id v hv => ?_
      · exact h.bindings id e (hsame.environment_eq id ▸ he)
      · rw [Objects.outcome?_fulfil ho] at hv
        split at hv
        · exact Option.some.inj hv ▸ h.read value
        · exact h.outcomes id v hv

theorem makeBundle (target : Register) (entries : List (Argument Register)) :
    (s.makeBundle target entries).session.MadeWith Q := by
  refine h.put target (.of_unmade rfl fun c hc => ?_)
  obtain ⟨e, he, hv⟩ := List.mem_filterMap.1 hc
  obtain ⟨d, -, rfl⟩ := List.mem_map.1 he
  obtain ⟨r, -, rfl⟩ := Option.map_eq_some_iff.1 hv
  exact h.read r

theorem makeList (target : Register) (items : Listing Register) :
    (s.makeList target items).session.MadeWith Q := by
  have hvalues : ∀ c ∈ (items.map s.read).values, c.MadeWith Q := by
    intro c hc
    cases items with
    | plain rs =>
      obtain ⟨r, -, rfl⟩ := List.mem_map.1 hc
      exact h.read r
    | labelled es =>
      obtain ⟨e, he, rfl⟩ := List.mem_map.1 hc
      obtain ⟨d, -, rfl⟩ := List.mem_map.1 he
      exact h.read d.value
  have hput := h.put target (v := .list (items.map s.read)) (.of_unmade rfl hvalues)
  cases items <;> exact hput

theorem makeEnvironment (target : Register) (standing : Standing Register) :
    (s.makeEnvironment target standing).session.MadeWith Q := by
  have hobjects := h.withObjects (o := (s.objects.newEnvironment
    (standing.resolve s.environment?)).2) (fun id e he => ?_) h.outcomes
  · exact hobjects.put target (.of_childless rfl rfl)
  · rw [Objects.environment_newEnvironment] at he
    split at he
    · exact absurd he List.not_mem_nil
    · exact h.bindings id e he

theorem define (environment : Register) (name : Symbol) (value : Register) :
    (s.define environment name value).session.MadeWith Q := by
  rw [Scene.define]
  cases s.environment? environment with
  | none => exact h
  | some target =>
    refine h.withObjects (fun id e he => ?_) h.outcomes
    rw [Objects.environment_define] at he
    split at he
    · rcases Bindings.mem_insert he with rfl | he
      · exact h.read value
      · exact h.bindings id e he
    · exact h.bindings id e he

theorem fetch (target environment : Register) (name : Symbol) :
    (s.fetch target environment name).session.MadeWith Q := by
  rw [Scene.fetch]
  cases s.environment? environment with
  | none => exact h
  | some id =>
    cases hv : (s.objects.environment id).bindings.find? name with
    | none =>
      simp only [hv]
      exact h
    | some v =>
      obtain ⟨e, he, rfl⟩ := Bindings.mem_of_find? hv
      simp only [hv]
      exact h.put target (h.bindings id e he)

theorem makeClosure (target : Register) (formals : List (Formal (Node Register)))
    (body : Node Register) (scope : Register)
    (hnew : ∀ v, s.made? (.closure target formals body scope) = some v → Q v) :
    (s.makeClosure target formals body scope).session.MadeWith Q := by
  rw [Scene.makeClosure]
  cases hs : s.environment? scope with
  | none => exact h
  | some id =>
    have hobjects := h.withObjects (o := { s.objects with closures := s.objects.closures + 1 })
      h.bindings h.outcomes
    refine hobjects.put target (.of_children (fun _ => hnew _ ?_) fun c hc => ?_)
    · rw [made?, hs]
      rfl
    · rcases List.mem_append.1 hc with hc | hc
      · obtain ⟨f, hf, n, hn, hc⟩ := Node.mem_constantsOfFormals_iff.1 hc
        obtain ⟨g, -, rfl⟩ := List.mem_map.1 hf
        obtain ⟨m, -, rfl⟩ := Option.map_eq_some_iff.1 hn
        exact h.constants_expression m c hc
      · exact h.constants_expression body c hc

theorem substitute (target : Register) (ref : SourceRef) (n : Node Register) (limit : Nat) :
    (s.substitute target ref n limit).session.MadeWith Q := by
  rw [Scene.substitute]
  cases hs : s.source? ref with
  | none => exact h
  | some source =>
    simp only [Substitution.applyValue]
    cases ht : (Substitution.apply ⟨source, limit⟩ s.objects (s.expression n)).1 with
    | error e => exact h
    | ok t =>
      have hconstants : ∀ c ∈ t.constants, c.MadeWith Q := by
        rw [← ((Substitution.apply_eq_ok_iff _ _ _ t).1 ht).2]
        exact Node.constants_graft (fun x v hv c hc => (h.find? hs hv).of_partOf hc) _
          (h.constants_expression n)
      refine h.put target ?_
      cases t with
      | constant v => exact hconstants v (List.mem_singleton.2 rfl)
      | _ => exact .of_unmade rfl hconstants

end MadeWith

end Scene

namespace Session

variable {s : Session}

/-- A command has only what it read, and what it made. -/
theorem madeWith_step (h : s.MadeWith Q) (c : Command) (hnew : ∀ v, s.made? c = some v → Q v) :
    (s.step c).session.MadeWith Q := by
  by_cases hv : c.isOnVectors = true
  · exact h.revectored (s.revectored_step hv)
  cases c with
  | promise target n scope => exact h.makePromise target n scope (hnew _ rfl)
  | closure target formals body scope => exact h.makeClosure target formals body scope hnew
  | share target source => exact h.share target source
  | drop r => exact h.drop r
  | null target => exact h.put target (.of_childless rfl rfl)
  | symbol target name => exact h.put target (.of_childless rfl rfl)
  | quote target n => exact h.makeQuote target n
  | fulfil promise value => exact h.fulfil promise value
  | bundle target entries => exact h.makeBundle target entries
  | list target items => exact h.makeList target items
  | environment target standing => exact h.makeEnvironment target standing
  | define environment name value => exact h.define environment name value
  | fetch target environment name => exact h.fetch target environment name
  | substitute target source n limit => exact h.substitute target source n limit
  | _ => exact absurd rfl hv

/-- A promise or a closure that a session holds after a command was made by it or held before. -/
theorem holds_step {c : Command} {w : Value} (hw : w.isMade = true)
    (h : (s.step c).session.Holds w) : s.Holds w ∨ s.made? c = some w := by
  have hbefore : s.MadeWith fun w => s.Holds w ∨ s.made? c = some w :=
    Scene.madeWith_iff.2 fun w _ h => Or.inl h
  exact Scene.madeWith_iff.1 (madeWith_step hbefore c fun v hv => Or.inr hv) w hw h

/-- What a command makes has the next number of its sort. -/
inductive Numbers (s : Session) (c : Command) : Prop
  | nothing (made : s.made? c = none)
      (promises : (s.step c).session.objects.outcomes.size = s.objects.outcomes.size)
      (closures : (s.step c).session.objects.closures = s.objects.closures)
  | promise (n : Expression) (scope : Option EnvironmentId)
      (made : s.made? c = some (.promise ⟨s.objects.outcomes.size⟩ n scope))
      (promises : (s.step c).session.objects.outcomes.size = s.objects.outcomes.size + 1)
      (closures : (s.step c).session.objects.closures = s.objects.closures)
  | closure (formals : List (Formal Expression)) (body : Expression) (scope : EnvironmentId)
      (made : s.made? c = some (.closure ⟨s.objects.closures⟩ formals body scope))
      (promises : (s.step c).session.objects.outcomes.size = s.objects.outcomes.size)
      (closures : (s.step c).session.objects.closures = s.objects.closures + 1)

namespace Numbers

variable {c : Command}

theorem of_objects_eq (made : s.made? c = none) (h : (s.step c).session.objects = s.objects) :
    s.Numbers c :=
  .nothing made (by rw [h]) (by rw [h])

end Numbers

theorem made?_of_isOnVectors {c : Command} (hc : c.isOnVectors = true) : s.made? c = none := by
  cases c <;> first | rfl | exact absurd hc Bool.false_ne_true

theorem numbers_fulfil (promise value : Register) : s.Numbers (.fulfil promise value) := by
  cases hp : s.value? promise with
  | some v =>
    cases v with
    | promise id n scope =>
      cases ho : s.objects.fulfil id (s.read value) with
      | some o =>
        have hstep : (s.step (.fulfil promise value)).session.objects = o := by
          simp only [step, inScene, Scene.fulfil, hp, ho]
          rfl
        have hsame := Objects.sameButOutcomes_of_fulfil ho
        exact .nothing rfl (by rw [hstep, hsame.size_eq]) (by rw [hstep, hsame.closures_eq])
      | none => exact .of_objects_eq rfl (by simp only [step, inScene, Scene.fulfil, hp, ho]; rfl)
    | _ => exact .of_objects_eq rfl (by simp only [step, inScene, Scene.fulfil, hp]; rfl)
  | none => exact .of_objects_eq rfl (by simp only [step, inScene, Scene.fulfil, hp]; rfl)

theorem numbers_closure (target : Register) (formals : List (Formal (Node Register)))
    (body : Node Register) (scope : Register) :
    s.Numbers (.closure target formals body scope) := by
  cases hs : s.environment? scope with
  | none =>
    exact .of_objects_eq (by rw [Scene.made?, hs]; rfl)
      (by simp only [step, inScene, Scene.makeClosure, hs]; rfl)
  | some id =>
    have hobjects : (s.step (.closure target formals body scope)).session.objects =
        { s.objects with closures := s.objects.closures + 1 } := by
      simp only [step, inScene, Scene.makeClosure, hs]
      rfl
    exact .closure (formals.map fun f => ⟨f.name, f.default.map s.expression⟩) (s.expression body)
      id (by rw [Scene.made?, hs]; rfl) (by rw [hobjects]) (by rw [hobjects])

theorem numbers_step (s : Session) (c : Command) : s.Numbers c := by
  by_cases hv : c.isOnVectors = true
  · exact .of_objects_eq (made?_of_isOnVectors hv) (s.revectored_step hv).objects_eq
  cases c with
  | promise target n scope => exact .promise _ _ rfl (Array.size_push _) rfl
  | closure target formals body scope => exact numbers_closure target formals body scope
  | fulfil promise value => exact numbers_fulfil promise value
  | environment target standing => exact .nothing rfl rfl rfl
  | define environment name value =>
    cases he : s.environment? environment with
    | none => exact .of_objects_eq rfl (by simp only [step, inScene, Scene.define, he]; rfl)
    | some id =>
      refine .nothing rfl ?_ ?_ <;> simp only [step, inScene, Scene.define, he] <;> rfl
  | share target source =>
    refine .of_objects_eq rfl ?_
    rw [step, inScene, Scene.share]
    split <;> rfl
  | list target items => cases items <;> exact .of_objects_eq rfl rfl
  | fetch target environment name =>
    refine .of_objects_eq rfl ?_
    rw [step, inScene, Scene.fetch]
    split
    · split <;> rfl
    · rfl
  | substitute target source n limit =>
    refine .of_objects_eq rfl ?_
    rw [step, inScene, Scene.substitute]
    split
    · split <;> rfl
    · rfl
  | drop r => exact .of_objects_eq rfl rfl
  | null target => exact .of_objects_eq rfl rfl
  | symbol target name => exact .of_objects_eq rfl rfl
  | quote target n => exact .of_objects_eq rfl rfl
  | bundle target entries => exact .of_objects_eq rfl rfl
  | _ => exact absurd rfl hv

end Session

/-- Handles to one closure lead to the same parameters and the same body. -/
structure Scene.ClosuresAgree (s : Scene) : Prop where
  index_lt {id : ClosureId} {fs : List (Formal Expression)} {b : Expression}
    {scope : EnvironmentId} : s.Holds (.closure id fs b scope) → id.index < s.objects.closures
  eq {id : ClosureId} {fs gs : List (Formal Expression)} {b c : Expression}
    {scope scope' : EnvironmentId} :
    s.Holds (.closure id fs b scope) → s.Holds (.closure id gs c scope') → gs = fs ∧ c = b

theorem Scene.not_holds_empty (w : Value) : ¬ Scene.empty.Holds w := by
  rintro (⟨hmem, -⟩ | ⟨hmem, -⟩ | ⟨hsome, -⟩)
  · exact List.not_mem_nil hmem
  · exact List.not_mem_nil hmem
  · exact Option.some_ne_none _ hsome.symm

namespace Session

variable {s : Session}

theorem closuresAgree_step (h : s.ClosuresAgree) (c : Command) :
    (s.step c).session.ClosuresAgree := by
  cases s.numbers_step c with
  | closure gs d e hmade _ hsize =>
    have hnew {id : ClosureId} {fs : List (Formal Expression)} {b : Expression}
        {scope : EnvironmentId} (hw : (s.step c).session.Holds (.closure id fs b scope)) :
        s.Holds (.closure id fs b scope) ∨ id = ⟨s.objects.closures⟩ ∧ fs = gs ∧ b = d := by
      refine (holds_step rfl hw).imp_right fun hw => ?_
      rw [hmade] at hw
      obtain ⟨hid, hfs, hb, -⟩ := Value.closure.inj (Option.some.inj hw)
      exact ⟨hid.symm, hfs.symm, hb.symm⟩
    constructor
    · intro id fs b scope hw
      rw [hsize]
      rcases hnew hw with hw | ⟨rfl, -, -⟩
      · exact Nat.lt_succ_of_lt (h.index_lt hw)
      · exact Nat.lt_succ_self _
    · intro id fs gs' b c' scope scope' hw hw'
      -- The new number was not in use, so two handles with it are both new.
      rcases hnew hw with hold | ⟨rfl, rfl, rfl⟩ <;> rcases hnew hw' with hold' | ⟨hid, rfl, rfl⟩
      · exact h.eq hold hold'
      · rw [hid] at hold
        exact absurd (h.index_lt hold) (Nat.lt_irrefl _)
      · exact absurd (h.index_lt hold') (Nat.lt_irrefl _)
      · exact ⟨rfl, rfl⟩
  | nothing hmade _ hsize | promise _ _ hmade _ hsize =>
    have hold {id : ClosureId} {fs : List (Formal Expression)} {b : Expression}
        {scope : EnvironmentId} (hw : (s.step c).session.Holds (.closure id fs b scope)) :
        s.Holds (.closure id fs b scope) := by
      refine (holds_step rfl hw).resolve_right fun hw => ?_
      simp [hmade] at hw
    exact ⟨fun hw => hsize ▸ h.index_lt (hold hw), fun hw hw' => h.eq (hold hw) (hold hw')⟩

theorem closuresAgree_run (h : s.ClosuresAgree) (commands : List Command) :
    (s.run commands).ClosuresAgree := by
  induction commands generalizing s with
  | nil => exact h
  | cons c cs ih => exact ih (closuresAgree_step h c)

theorem closuresAgree (commands : List Command) : (empty.run commands).ClosuresAgree :=
  closuresAgree_run ⟨fun hw => absurd hw (Scene.not_holds_empty _),
    fun hw => absurd hw (Scene.not_holds_empty _)⟩ commands

end Session

end Deferred
