import Deferred.Builtin.Signature
import Deferred.Config
import Deferred.Substitution

/-!
# The substitute builtin

`substitute(expr, env)`: takes `expr` unevaluated and puts in the bindings of the calling frame
or, if `env` is supplied, of the environment or list that `env` evaluates to.
-/
set_option autoImplicit false

namespace Deferred

/-- Evaluates an expression in a frame. That can change the heap, and the state of the evaluator. -/
abbrev Evaluator (σ : Type) := Expression → Option Frame → Heap → σ → Except Fault Value × Heap × σ

/-- Looks symbols up in a table and evaluates nothing else. Its state counts its calls. -/
def Evaluator.ofTable (table : List (Symbol × Value)) : Evaluator Nat := fun n _ h calls =>
  match n with
  | .symbol name =>
    match table.lookup name with
    | some v => (.ok v, h, calls + 1)
    | none => (.error (.objectNotFound name), h, calls + 1)
  | _ => (.error (.notEvaluable n), h, calls + 1)

def Signature.substitute : Signature := ⟨"substitute", ["expr", "env"], ["expr"]⟩

structure SubstituteCall where
  expr : Expression
  env : Option Expression
  config : SubstituteConfig

/-- The outcome of a call, the heap and the evaluator's state after it, and what happened on the
way. -/
structure SubstituteRun (σ : Type) where
  result : Except Fault Value
  heap : Heap
  state : σ
  events : List Event

namespace SubstituteCall

def create (arguments : List (Argument Expression)) (config : SubstituteConfig) :
    Except Fault SubstituteCall := do
  let supplied ← Signature.substitute.matchArguments arguments
  match supplied.get? "expr" with
  | none => .error (.missingArgument "expr")
  | some expr => return ⟨expr, supplied.get? "env", config⟩

def source? (c : SubstituteCall) (h : Heap) : Value → Option Source
  | .environment id =>
    some (if h.isGlobal id && c.config.globalAsNothing then .nothing else .environment id)
  | .list items => some (.list items)
  | _ => none

def run {σ : Type} (c : SubstituteCall) (h : Heap) (source : Source) (state : σ) :
    SubstituteRun σ :=
  let (result, events) := (Substitution.mk source c.config.maxDepth.toNat).applyValue h c.expr
  ⟨result, h, state, .substituting c.expr source.scope :: events⟩

/-- Without `env` the calling frame supplies the bindings, and without a frame there are none. -/
def execute {σ : Type} (c : SubstituteCall) (h : Heap) (frame : Option Frame)
    (eval : Evaluator σ) (state : σ) : SubstituteRun σ :=
  match c.env with
  | none => c.run h (match frame with | some f => .frame f | none => .nothing) state
  | some env =>
    match eval env frame h state with
    | (.error e, h, state) => ⟨.error e, h, state, []⟩
    | (.ok v, h, state) =>
      match c.source? h v with
      | some source => c.run h source state
      | none => ⟨.error (.invalidEnvironment "env"), h, state, [.rejecting v.typeName]⟩

end SubstituteCall

end Deferred
