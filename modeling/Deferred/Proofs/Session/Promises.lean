import Deferred.Proofs.Session.Made

set_option autoImplicit false

namespace Deferred

namespace Session

variable {s : Session} {origins : List Origin}

/-- A command makes at most one promise and leaves all others as they are. -/
theorem tracedTo_step (h : s.TracedTo origins) (c : Command) :
    ∃ more, (s.step c).session.TracedTo (origins ++ more) := by
  obtain ⟨hsize, hheld⟩ := Scene.tracedTo_iff.1 h
  have hsame (hsizes : (s.step c).session.objects.outcomes.size = s.objects.outcomes.size)
      (hmade : ∀ id n scope, s.made? c ≠ some (.promise id n scope)) :
      ∃ more, (s.step c).session.TracedTo (origins ++ more) := by
    refine ⟨[], Scene.tracedTo_iff.2 ⟨by rw [hsizes, hsize, List.append_nil], ?_⟩⟩
    intro id n scope hw
    rcases holds_step rfl hw with hw | hw
    · rw [List.append_nil, hheld id n scope hw]
    · exact absurd hw (hmade id n scope)
  cases s.numbers_step c with
  | nothing hmade hsizes _ => exact hsame hsizes fun id n scope hw => by simp [hmade] at hw
  | closure _ _ _ hmade hsizes _ => exact hsame hsizes fun id n scope hw => by simp [hmade] at hw
  | promise n scope hmade hsizes _ =>
    refine ⟨[⟨n, scope⟩], Scene.tracedTo_iff.2
      ⟨by rw [hsizes, hsize, List.length_append, List.length_singleton], ?_⟩⟩
    intro id m scope' hw
    rcases holds_step rfl hw with hw | hw
    · exact (h.of_holds hw).append [⟨n, scope⟩] id m scope' .self
    · rw [hmade] at hw
      obtain ⟨rfl, rfl, rfl⟩ := Value.promise.inj (Option.some.inj hw)
      rw [hsize, List.getElem?_concat_length]

theorem tracedTo_run (h : s.TracedTo origins) (commands : List Command) :
    ∃ more, (s.run commands).TracedTo (origins ++ more) := by
  induction commands generalizing s origins with
  | nil => exact ⟨[], by rwa [List.append_nil]⟩
  | cons c cs ih =>
    obtain ⟨more, hstep⟩ := tracedTo_step h c
    obtain ⟨rest, hrun⟩ := ih hstep
    exact ⟨more ++ rest, by rwa [← List.append_assoc]⟩

theorem exists_tracedTo (commands : List Command) :
    ∃ origins, (empty.run commands).TracedTo origins := by
  obtain ⟨origins, h⟩ := tracedTo_run (s := empty) Scene.tracedTo_empty commands
  exact ⟨origins, h⟩

theorem outcome?_step {id : PromiseId} {v : Value} (h : s.objects.outcome? id = some v)
    (c : Command) : (s.step c).session.objects.outcome? id = some v := by
  by_cases hv : c.isOnVectors = true
  · rwa [(s.revectored_step hv).objects_eq]
  cases c with
  | promise target n scope =>
    exact (Objects.outcome?_newPromise s.objects (s.expression n) (scope.bind s.environment?)
      id).trans h
  | fulfil promise value =>
    rw [step, inScene, Scene.fulfil]
    split
    case h_2 => exact h
    case h_1 other n scope hp =>
      cases ho : s.objects.fulfil other (s.read value) with
      | none => exact h
      | some o => exact Objects.outcome?_fulfil_of_some ho h
  | share target source =>
    rw [step, inScene, Scene.share]
    split <;> exact h
  | list target items => cases items <;> exact h
  | define environment name value =>
    rw [step, inScene, Scene.define]
    split <;> exact h
  | fetch target environment name =>
    rw [step, inScene, Scene.fetch]
    split
    · split <;> exact h
    · exact h
  | closure target formals body scope =>
    rw [step, inScene, Scene.makeClosure]
    split <;> exact h
  | substitute target source n limit =>
    rw [step, inScene, Scene.substitute]
    split
    · split <;> exact h
    · exact h
  | drop r => exact h
  | null target => exact h
  | symbol target name => exact h
  | quote target n => exact h
  | bundle target entries => exact h
  | environment target standing => exact h
  | _ => exact absurd rfl hv

theorem outcome?_run {id : PromiseId} {v : Value} (h : s.objects.outcome? id = some v)
    (commands : List Command) : (s.run commands).objects.outcome? id = some v := by
  induction commands generalizing s with
  | nil => exact h
  | cons c cs ih => exact ih (outcome?_step h c)

section Fulfil

variable {p q : Register} {id : PromiseId} {n : Expression} {scope : Option EnvironmentId}
  (hp : s.value? p = some (.promise id n scope))

include hp

theorem step_fulfil_of_none (hid : id.index < s.objects.outcomes.size)
    (h : s.objects.outcome? id = none) :
    (s.step (.fulfil p q)).complaint = none ∧
      (s.step (.fulfil p q)).session.objects.outcome? id = some (s.read q) := by
  have ho := Objects.fulfil_of_none h (s.read q)
  have houtcome := Objects.outcome?_fulfil ho id
  rw [if_pos ⟨rfl, hid⟩] at houtcome
  simp only [step, inScene, Scene.fulfil, hp, ho]
  exact ⟨rfl, houtcome⟩

theorem step_fulfil_of_some (h : (s.objects.outcome? id).isSome) :
    s.step (.fulfil p q) = .failed s (.forcedTwice n) := by
  have ho : s.objects.fulfil id (s.read q) = none := Objects.fulfil_eq_none_iff.2 h
  simp only [step, inScene, Scene.fulfil, hp, ho]
  rfl

end Fulfil

/-- After any commands, and after any values were offered to promises, taken or refused: a
substitution gives the same tree or fault, and looks up the same names, as without the offers, and
every fault has the same message. The offers change nothing but outcomes, and the outcome of a
promise is the first value that it was offered. A promise that has a value refuses another one. Two
handles to one promise that are held now and after further commands have the same expression and
scope, and a promise keeps its value. -/
theorem run_keeps_promises (before : List Command) (calls : List (PromiseId × Value)) :
    let s := Session.empty.run before
    let o := s.objects.offers calls
    (∀ (source : Source) (n : Expression) (limit : Nat),
      (Substitution.mk source limit).apply o n =
        (Substitution.mk source limit).apply s.objects n) ∧
    (∀ e : Fault, e.message ⟨o, s.store⟩ = e.message s.heap) ∧
    s.objects.SameButOutcomes o ∧
    (∀ id n scope, s.Holds (.promise id n scope) →
      o.outcome? id = (s.objects.outcome? id).or (calls.lookup id) ∧
      (∀ v, o.fulfil id v = none ↔ (o.outcome? id).isSome)) ∧
    (∀ p q id n scope, s.value? p = some (.promise id n scope) →
      (s.objects.outcome? id = none →
        (s.step (.fulfil p q)).complaint = none ∧
          (s.step (.fulfil p q)).session.objects.outcome? id = some (s.read q)) ∧
      ((s.objects.outcome? id).isSome →
        s.step (.fulfil p q) = .failed s (.forcedTwice n))) ∧
    ∀ after : List Command,
      (∀ id n n' scope scope', s.Holds (.promise id n scope) →
        (s.run after).Holds (.promise id n' scope') → n' = n ∧ scope' = scope) ∧
      ∀ id v, s.objects.outcome? id = some v → (s.run after).objects.outcome? id = some v := by
  intro s o
  have hsame : s.objects.SameButOutcomes o := s.objects.sameButOutcomes_offers calls
  obtain ⟨origins, htraced⟩ : ∃ origins, s.TracedTo origins := exists_tracedTo before
  refine ⟨fun source n limit => Substitution.apply_of_sameButOutcomes hsame _ n,
    (hsame.resembles s.store).message_eq, hsame, ?_, ?_, fun after => ⟨?_, ?_⟩⟩
  · intro id n scope h
    exact ⟨Objects.outcome?_offers (htraced.index_lt h) calls,
      fun v => Objects.fulfil_eq_none_iff⟩
  · intro p q id n scope hp
    have hheld : s.Holds (.promise id n scope) := .register (mem_of_lookup hp) .self
    exact ⟨step_fulfil_of_none hp (htraced.index_lt hheld), step_fulfil_of_some hp⟩
  · intro id n n' scope scope' h h'
    obtain ⟨more, hrun⟩ := tracedTo_run htraced after
    exact htraced.eq_of_holds hrun h h'
  · exact fun id v h => outcome?_run h after

/-- A promise for `u + v` that is bound to `x` and holds the name `a` is offered null. -/
theorem run_keeps_promises_offered_again :
    let p := Register.named "p"
    let a := Register.named "a"
    let e := Register.named "e"
    let sum : Expression := .binary .add (.symbol ⟨"u"⟩) (.symbol ⟨"v"⟩)
    let s := empty.run [.environment e .global, .symbol a ⟨"a"⟩,
      .promise p (.binary .add (.symbol ⟨"u"⟩) (.symbol ⟨"v"⟩)) (some e), .define e ⟨"x"⟩ p,
      .fulfil p a]
    let o := s.objects.offers [(⟨0⟩, .null)]
    s.Holds (.promise ⟨0⟩ sum (some ⟨0⟩)) ∧ o.outcome? ⟨0⟩ = some (.symbol ⟨"a"⟩) ∧
      ((Substitution.mk (.environment ⟨0⟩) 1).apply o (.symbol ⟨"x"⟩)).1 = .ok sum ∧
      s.step (.fulfil p e) = .failed s (.forcedTwice sum) := by
  intro p a e sum s o
  have hp : s.value? p = some (.promise ⟨0⟩ sum (some ⟨0⟩)) := rfl
  have hheld : s.Holds (.promise ⟨0⟩ sum (some ⟨0⟩)) := .register (mem_of_lookup hp) .self
  obtain ⟨hsame, -, -, houtcome, hstep, -⟩ := run_keeps_promises
    [.environment e .global, .symbol a ⟨"a"⟩,
      .promise p (.binary .add (.symbol ⟨"u"⟩) (.symbol ⟨"v"⟩)) (some e), .define e ⟨"x"⟩ p,
      .fulfil p a] [(⟨0⟩, .null)]
  refine ⟨hheld, (houtcome _ _ _ hheld).1, ?_, (hstep p e _ _ _ hp).2 rfl⟩
  exact (congrArg Prod.fst (hsame (.environment ⟨0⟩) (.symbol ⟨"x"⟩) 1)).trans rfl

end Session

end Deferred
