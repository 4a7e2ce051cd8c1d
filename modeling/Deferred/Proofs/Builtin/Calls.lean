import Deferred.Builtin.Substitute
import Deferred.Proofs.Builtin.Matching
import Deferred.Proofs.Substitution.Identity

set_option autoImplicit false

namespace Deferred

/-- The same evaluator with a record of the calls made of it, in order. -/
def Evaluator.recording {σ : Type} (eval : Evaluator σ) :
    Evaluator (σ × List (Expression × Option Frame)) := fun n frame h recorded =>
  let (result, h, state) := eval n frame h recorded.1
  (result, h, state, recorded.2 ++ [(n, frame)])

theorem Evaluator.recording_of_eq {σ : Type} (eval : Evaluator σ) {n : Expression}
    {frame : Option Frame} {h h' : Heap} {state state' : σ} {answer : Except Fault Value}
    (heval : eval n frame h state = (answer, h', state')) :
    eval.recording n frame h (state, []) = (answer, h', state', [(n, frame)]) := by
  simp only [recording, heval, List.nil_append]

def Source.ofFrame : Option Frame → Source
  | some f => .frame f
  | none => .nothing

def SubstituteConfig.outcome (config : SubstituteConfig) (h : Heap) (source : Source)
    (n : Expression) : Except Fault Value :=
  ((Substitution.mk source config.maxDepth.toNat).apply h n).1.map Value.ofExpression

theorem SubstituteConfig.outcome_nothing (config : SubstituteConfig) (h : Heap) (n : Expression) :
    config.outcome h .nothing n =
      if n.height ≤ config.maxDepth.toNat then .ok (.ofExpression n)
      else .error (.tooDeep config.maxDepth.toNat) := by
  rw [outcome, Substitution.apply_nothing]
  by_cases hheight : n.height ≤ config.maxDepth.toNat
  · rw [if_pos hheight, if_pos hheight]
    rfl
  · rw [if_neg hheight, if_neg hheight]
    rfl

namespace SubstituteCall

variable {args : List (Argument Expression)} {config : SubstituteConfig} {c : SubstituteCall}

theorem params_nodup : Signature.substitute.params.Nodup := by decide

/-- A call is made of what its arguments supply for the two parameters. -/
theorem create_eq_ok_iff :
    create args config = .ok c ↔
      Signature.substitute.Admits args ∧ Signature.substitute.supplied? args "expr" = some c.expr ∧
        Signature.substitute.supplied? args "env" = c.env ∧ c.config = config := by
  have hget : ∀ p ∈ Signature.substitute.params, (Matching.mk Signature.substitute.params
      (Signature.substitute.params.map (Signature.substitute.supplied? args))).get? p =
        Signature.substitute.supplied? args p :=
    fun p hp => Signature.get?_of_mem hp _
  have hexpr := hget "expr" (by decide)
  have henv := hget "env" (by decide)
  constructor
  · intro hc
    cases hm : Signature.substitute.matchArguments args with
    | error e =>
      rw [create, hm] at hc
      exact absurd hc (by simp [bind, Except.bind])
    | ok m =>
      obtain ⟨hadmits, rfl⟩ := (Signature.matchArguments_eq_ok_iff params_nodup m).1 hm
      rw [create, hm] at hc
      simp only [bind, Except.bind, hexpr, henv] at hc
      cases hs : Signature.substitute.supplied? args "expr" with
      | none => simp [hs] at hc
      | some n =>
        simp only [hs] at hc
        obtain rfl := Except.ok.inj hc
        exact ⟨hadmits, rfl, rfl, rfl⟩
  · rintro ⟨hadmits, hsupplied, hscope, rfl⟩
    have hm := Signature.matchArguments_of_admits params_nodup hadmits
    rw [create, hm]
    simp only [bind, Except.bind, hexpr, henv, hsupplied, hscope]
    rfl

variable {σ τ : Type} {h h' : Heap} {frame : Option Frame} {env : Expression}

theorem execute_of_none (henv : c.env = none) (h : Heap) (frame : Option Frame)
    (eval : Evaluator σ) (state : σ) :
    c.execute h frame eval state = c.run h (.ofFrame frame) state := by
  cases frame with
  | none => simp only [execute, henv, Source.ofFrame]
  | some f => simp only [execute, henv, Source.ofFrame]

theorem execute_of_error (henv : c.env = some env) {eval : Evaluator σ} {state state' : σ}
    {e : Fault} (heval : eval env frame h state = (.error e, h', state')) :
    c.execute h frame eval state = ⟨.error e, h', state', []⟩ := by
  simp only [execute, henv, heval]

theorem execute_of_source (henv : c.env = some env) {eval : Evaluator σ} {state state' : σ}
    {v : Value} (heval : eval env frame h state = (.ok v, h', state')) {source : Source}
    (hsource : c.source? h' v = some source) :
    c.execute h frame eval state = c.run h' source state' := by
  simp only [execute, henv, heval, hsource]

theorem execute_of_no_source (henv : c.env = some env) {eval : Evaluator σ} {state state' : σ}
    {v : Value} (heval : eval env frame h state = (.ok v, h', state'))
    (hsource : c.source? h' v = none) :
    c.execute h frame eval state =
      ⟨.error (.invalidEnvironment "env"), h', state', [.rejecting v.typeName]⟩ := by
  simp only [execute, henv, heval, hsource]

theorem result_execute_of_list (henv : c.env = some env) {eval : Evaluator σ} {state state' : σ}
    {items : Listing Value} (heval : eval env frame h state = (.ok (.list items), h', state')) :
    (c.execute h frame eval state).result = c.config.outcome h' (.list items) c.expr := by
  have hsource : c.source? h' (.list items) = some (.list items) := rfl
  exact congrArg SubstituteRun.result (execute_of_source henv heval hsource)

/-- A global environment binds nothing if the configuration says so. -/
theorem result_execute_of_environment (henv : c.env = some env) {eval : Evaluator σ}
    {state state' : σ} {id : EnvironmentId}
    (heval : eval env frame h state = (.ok (.environment id), h', state')) :
    (c.execute h frame eval state).result = c.config.outcome h'
      (if h'.isGlobal id ∧ c.config.globalAsNothing then .nothing else .environment id)
      c.expr := by
  have hsource : c.source? h' (.environment id) = some
      (if h'.isGlobal id ∧ c.config.globalAsNothing then .nothing else .environment id) := by
    simp only [source?, Bool.and_eq_true]
  exact congrArg SubstituteRun.result (execute_of_source henv heval hsource)

theorem execute_of_other (henv : c.env = some env) {eval : Evaluator σ} {state state' : σ}
    {v : Value} (heval : eval env frame h state = (.ok v, h', state'))
    (hlist : ∀ items, v ≠ .list items) (hid : ∀ id, v ≠ .environment id) :
    c.execute h frame eval state =
      ⟨.error (.invalidEnvironment "env"), h', state', [.rejecting v.typeName]⟩ := by
  have hsource : c.source? h' v = none := by
    cases v with
    | list items => exact absurd rfl (hlist items)
    | environment id => exact absurd rfl (hid id)
    | _ => rfl
  exact execute_of_no_source henv heval hsource

theorem run_congr (h : Heap) (source : Source) (s : σ) (t : τ) :
    (c.run h source s).result = (c.run h source t).result ∧
      (c.run h source s).heap = (c.run h source t).heap ∧
      (c.run h source s).events = (c.run h source t).events :=
  ⟨rfl, rfl, rfl⟩

/-- If two evaluators give the same answer and leave the same heap, two runs come to the same, in
whatever frames and heaps they began. -/
theorem execute_congr (henv : c.env = some env) {h₁ h₂ : Heap} {frame₁ frame₂ : Option Frame}
    {eval : Evaluator σ} {other : Evaluator τ} {s s' : σ} {t t' : τ} {answer : Except Fault Value}
    (he : eval env frame₁ h₁ s = (answer, h', s')) (ho : other env frame₂ h₂ t = (answer, h', t')) :
    (c.execute h₁ frame₁ eval s).result = (c.execute h₂ frame₂ other t).result ∧
      (c.execute h₁ frame₁ eval s).heap = (c.execute h₂ frame₂ other t).heap ∧
      (c.execute h₁ frame₁ eval s).events = (c.execute h₂ frame₂ other t).events := by
  cases answer with
  | error e =>
    rw [execute_of_error henv he, execute_of_error henv ho]
    exact ⟨rfl, rfl, rfl⟩
  | ok v =>
    cases hsource : c.source? h' v with
    | some source =>
      rw [execute_of_source henv he hsource, execute_of_source henv ho hsource]
      exact run_congr h' source s' t'
    | none =>
      rw [execute_of_no_source henv he hsource, execute_of_no_source henv ho hsource]
      exact ⟨rfl, rfl, rfl⟩

theorem execute_of_eval (henv : c.env = some env) {eval : Evaluator σ} {state state' : σ}
    {answer : Except Fault Value} (heval : eval env frame h state = (answer, h', state')) :
    (c.execute h frame eval state).heap = h' ∧ (c.execute h frame eval state).state = state' := by
  cases answer with
  | error e =>
    rw [execute_of_error henv heval]
    exact ⟨rfl, rfl⟩
  | ok v =>
    cases hsource : c.source? h' v with
    | some source =>
      rw [execute_of_source henv heval hsource]
      exact ⟨rfl, rfl⟩
    | none =>
      rw [execute_of_no_source henv heval hsource]
      exact ⟨rfl, rfl⟩

theorem execute_recording (h : Heap) (frame : Option Frame) (eval : Evaluator σ) (state : σ) :
    let recorded := c.execute h frame eval.recording (state, [])
    let run := c.execute h frame eval state
    recorded.result = run.result ∧ recorded.heap = run.heap ∧ recorded.events = run.events ∧
      recorded.state.1 = run.state := by
  intro recorded run
  cases henv : c.env with
  | none =>
    have hr := execute_of_none henv h frame eval.recording (state, [])
    have he := execute_of_none henv h frame eval state
    simp only [recorded, run, hr, he]
    exact ⟨rfl, rfl, rfl, rfl⟩
  | some env =>
    obtain ⟨answer, h', state', heval⟩ :
        ∃ answer h' state', eval env frame h state = (answer, h', state') := ⟨_, _, _, rfl⟩
    have hrecord := eval.recording_of_eq heval
    obtain ⟨hresult, hheap, hevents⟩ := execute_congr henv hrecord heval
    have hstate : recorded.state = (state', [(env, frame)]) := (execute_of_eval henv hrecord).2
    refine ⟨hresult, hheap, hevents, ?_⟩
    rw [hstate, (execute_of_eval henv heval).2]

/-- Without `env`, a call is a substitution against the frame and nothing is evaluated. With `env`,
that is evaluated once, and the rest goes by the answer: frames count no more. Either way the limit
is that of the configuration, and where no bindings are to be put in the expression stays as it is.
-/
theorem execute_outcome (hc : create args config = .ok c) :
    Signature.substitute.supplied? args "expr" = some c.expr ∧
      (∀ {σ : Type} (eval : Evaluator σ) (state : σ) (h : Heap) (frame : Option Frame),
        let run := c.execute h frame eval state
        let recorded := c.execute h frame eval.recording (state, [])
        (recorded.result = run.result ∧ recorded.heap = run.heap ∧ recorded.events = run.events ∧
          recorded.state.1 = run.state) ∧
        (Signature.substitute.supplied? args "env" = none →
          recorded.state.2 = [] ∧ run.state = state ∧ run.heap = h ∧
            run.result = config.outcome h (.ofFrame frame) c.expr) ∧
        ∀ env, Signature.substitute.supplied? args "env" = some env →
          recorded.state.2 = [(env, frame)] ∧
            ∀ answer h' state', eval env frame h state = (answer, h', state') →
              run.state = state' ∧ run.heap = h' ∧
              (∀ e, answer = .error e → run.result = .error e ∧ run.events = []) ∧
              (∀ items, answer = .ok (.list items) →
                run.result = config.outcome h' (.list items) c.expr) ∧
              (∀ id, answer = .ok (.environment id) →
                run.result = config.outcome h' (if h'.isGlobal id ∧ config.globalAsNothing
                  then .nothing else .environment id) c.expr) ∧
              ∀ v, answer = .ok v → (∀ items, v ≠ .list items) → (∀ id, v ≠ .environment id) →
                run.result = .error (.invalidEnvironment "env") ∧
                  run.events = [.rejecting v.typeName]) ∧
      (∀ env, Signature.substitute.supplied? args "env" = some env →
        ∀ {σ τ : Type} (eval : Evaluator σ) (other : Evaluator τ) (s s' : σ) (t t' : τ)
          (h₁ h₂ h' : Heap) (frame₁ frame₂ : Option Frame) (answer : Except Fault Value),
          eval env frame₁ h₁ s = (answer, h', s') → other env frame₂ h₂ t = (answer, h', t') →
          let run₁ := c.execute h₁ frame₁ eval s
          let run₂ := c.execute h₂ frame₂ other t
          run₁.result = run₂.result ∧ run₁.heap = run₂.heap ∧ run₁.events = run₂.events) ∧
      ∀ h : Heap, config.outcome h .nothing c.expr =
        if c.expr.height ≤ config.maxDepth.toNat then .ok (.ofExpression c.expr)
        else .error (.tooDeep config.maxDepth.toNat) := by
  obtain ⟨-, hexpr, hscope, rfl⟩ := create_eq_ok_iff.1 hc
  refine ⟨hexpr, ?_, ?_, fun h => c.config.outcome_nothing h c.expr⟩
  · intro σ eval state h frame run recorded
    refine ⟨execute_recording h frame eval state, fun hnone => ?_, fun env henv => ?_⟩
    · have hc : c.env = none := hscope ▸ hnone
      simp only [run, recorded, execute_of_none hc]
      exact ⟨rfl, rfl, rfl, rfl⟩
    · have hc : c.env = some env := hscope ▸ henv
      have heval : eval env frame h state = (_, _, _) := rfl
      have hasked := (execute_of_eval hc (eval.recording_of_eq heval)).2
      refine ⟨congrArg Prod.snd hasked, fun answer h' state' heval => ?_⟩
      obtain ⟨hheap, hstate⟩ := execute_of_eval hc heval
      refine ⟨hstate, hheap, ?_, ?_, ?_, ?_⟩
      · rintro e rfl
        simp only [run, execute_of_error hc heval, and_self]
      · rintro items rfl
        exact result_execute_of_list hc heval
      · rintro id rfl
        exact result_execute_of_environment hc heval
      · rintro v rfl hlist hid
        simp only [run, execute_of_other hc heval hlist hid, and_self]
  · intro env henv σ τ eval other s s' t t' h₁ h₂ h' frame₁ frame₂ answer he ho
    exact execute_congr (hscope ▸ henv) he ho

/-- Although `x` is bound in the global environment and in the frame, `f(x)` stays as it is. -/
theorem execute_outcome_global :
    let n : Expression := .call ⟨"f"⟩ [⟨none, some (.symbol ⟨"x"⟩)⟩]
    let env : Expression := .symbol ⟨"g"⟩
    let args : List (Argument Expression) := [⟨some ⟨"env"⟩, some env⟩, ⟨none, some n⟩]
    let bindings : Bindings Value := Bindings.empty.insert ⟨"x"⟩ .null
    let h : Heap := ⟨⟨#[⟨bindings, .global⟩], #[], 0⟩, Store.empty⟩
    let frame : Option Frame := some ⟨none, bindings⟩
    let eval : Evaluator Nat := .ofTable [(⟨"g"⟩, .environment ⟨0⟩)]
    let config : SubstituteConfig := ⟨2, true⟩
    let c : SubstituteCall := ⟨n, some env, config⟩
    create args config = .ok c ∧ (c.execute h frame eval 0).result = .ok (.language n) ∧
      (c.execute h frame eval.recording (0, [])).state.2 = [(env, frame)] := by
  intro n env args bindings h frame eval config c
  have hc : create args config = .ok c := rfl
  obtain ⟨-, hrun, -, hnothing⟩ := execute_outcome hc
  obtain ⟨hasked, hanswer⟩ := (hrun eval 0 h frame).2.2 env rfl
  obtain ⟨-, -, -, -, hscope, -⟩ := hanswer (.ok (.environment ⟨0⟩)) h 1 rfl
  have hglobal : h.isGlobal ⟨0⟩ ∧ config.globalAsNothing := ⟨rfl, rfl⟩
  refine ⟨hc, ?_, hasked⟩
  rw [hscope ⟨0⟩ rfl, if_pos hglobal, hnothing h]
  rfl

end SubstituteCall

end Deferred
