import Deferred.Proofs.Substitution.Outcome

set_option autoImplicit false

namespace Deferred

variable {V : Kind → Type}

namespace Node

variable {α : Type}

mutual

/-- The symbols and the heads of calls, in order; constants, binders and labels do not count. -/
def names : Node α → List Symbol
  | .constant _ => []
  | .symbol name => [name]
  | .call f as => f :: namesArguments as
  | .block ss => namesNodes ss
  | .ifElse c t none => names c ++ names t
  | .ifElse c t (some e) => names c ++ names t ++ names e
  | .whileLoop c b => names c ++ names b
  | .repeatLoop b => names b
  | .forLoop _ s b => names s ++ names b
  | .function fs b => namesFormals fs ++ names b
  | .assign _ v _ => names v
  | .binary _ l m => names l ++ names m
  | .unary _ x => names x
  | .index b as _ => names b ++ namesArguments as
  | .field b _ => names b
  | .nextLoop => []
  | .breakLoop => []

def namesArguments : List (Argument (Node α)) → List Symbol
  | [] => []
  | ⟨_, none⟩ :: as => namesArguments as
  | ⟨_, some n⟩ :: as => names n ++ namesArguments as

def namesNodes : List (Node α) → List Symbol
  | [] => []
  | n :: ns => names n ++ namesNodes ns

def namesFormals : List (Formal (Node α)) → List Symbol
  | [] => []
  | ⟨_, none⟩ :: fs => namesFormals fs
  | ⟨_, some n⟩ :: fs => names n ++ namesFormals fs

end

theorem eq_symbol_of_isDots {n : Node α} (h : n.isDots = true) : n = .symbol Symbol.dots := by
  cases n with
  | symbol name =>
    have hn : name = Symbol.dots := by simpa [isDots, symbol?] using h
    rw [hn]
  | _ => simp [isDots, symbol?] at h

theorem names_of_isDots {n : Node α} (h : n.isDots = true) : n.names = [Symbol.dots] := by
  rw [eq_symbol_of_isDots h, names]

end Node

/-- None of the names is bound. -/
def Unbound (σ : Symbol → Option (Value V)) (names : List Symbol) : Prop :=
  ∀ x ∈ names, σ x = none

theorem unbound_append {σ : Symbol → Option (Value V)} {xs ys : List Symbol} :
    Unbound σ (xs ++ ys) ↔ Unbound σ xs ∧ Unbound σ ys :=
  List.forall_mem_append

theorem unbound_cons {σ : Symbol → Option (Value V)} {x : Symbol} {xs : List Symbol} :
    Unbound σ (x :: xs) ↔ σ x = none ∧ Unbound σ xs :=
  List.forall_mem_cons

namespace Node

variable {σ : Symbol → Option (Value V)}

theorem bundle?_of_unbound {n : Expression V} (h : Unbound σ n.names) : n.bundle? σ = none := by
  by_cases hd : n.isDots
  · have hs : σ Symbol.dots = none := h _ (by simp [names_of_isDots hd])
    simp [bundle?, hs]
  · simp [bundle?, hd]

mutual

theorem graft_of_unbound : ∀ n : Expression V, Unbound σ n.names → n.graft σ = n
  | .constant _, _ => rfl
  | .symbol name, h => by
    have hs : σ name = none := h name (by simp [names])
    rw [graft, hs]
    rfl
  | .call f as, h => by
    rw [names, unbound_cons] at h
    rw [graft, h.1, graftArguments_of_unbound as h.2]
    rfl
  | .block ss, h => by rw [graft, graftNodes_of_unbound ss h]
  | .ifElse c t none, h => by
    rw [names, unbound_append] at h
    rw [graft, graft_of_unbound c h.1, graft_of_unbound t h.2]
  | .ifElse c t (some e), h => by
    rw [names, unbound_append, unbound_append] at h
    rw [graft, graft_of_unbound c h.1.1, graft_of_unbound t h.1.2, graft_of_unbound e h.2]
  | .whileLoop c b, h => by
    rw [names, unbound_append] at h
    rw [graft, graft_of_unbound c h.1, graft_of_unbound b h.2]
  | .repeatLoop b, h => by rw [graft, graft_of_unbound b h]
  | .forLoop _ s b, h => by
    rw [names, unbound_append] at h
    rw [graft, graft_of_unbound s h.1, graft_of_unbound b h.2]
  | .function fs b, h => by
    rw [names, unbound_append] at h
    rw [graft, graftFormals_of_unbound fs h.1, graft_of_unbound b h.2]
  | .assign _ v _, h => by rw [graft, graft_of_unbound v h]
  | .binary _ l m, h => by
    rw [names, unbound_append] at h
    rw [graft, graft_of_unbound l h.1, graft_of_unbound m h.2]
  | .unary _ x, h => by rw [graft, graft_of_unbound x h]
  | .index b as _, h => by
    rw [names, unbound_append] at h
    rw [graft, graft_of_unbound b h.1, graftArguments_of_unbound as h.2]
  | .field b _, h => by rw [graft, graft_of_unbound b h]
  | .nextLoop, _ => rfl
  | .breakLoop, _ => rfl

theorem graftArguments_of_unbound :
    ∀ as : List (Argument (Expression V)), Unbound σ (namesArguments as) →
      graftArguments σ as = as
  | [], _ => rfl
  | ⟨_, none⟩ :: as, h => by rw [graftArguments, graftArguments_of_unbound as h]
  | ⟨_, some n⟩ :: as, h => by
    rw [namesArguments, unbound_append] at h
    rw [graftArguments, bundle?_of_unbound h.1, graft_of_unbound n h.1,
      graftArguments_of_unbound as h.2]
    rfl

theorem graftNodes_of_unbound :
    ∀ ns : List (Expression V), Unbound σ (namesNodes ns) → graftNodes σ ns = ns
  | [], _ => rfl
  | n :: ns, h => by
    rw [namesNodes, unbound_append] at h
    rw [graftNodes, graft_of_unbound n h.1, graftNodes_of_unbound ns h.2]

theorem graftFormals_of_unbound :
    ∀ fs : List (Formal (Expression V)), Unbound σ (namesFormals fs) → graftFormals σ fs = fs
  | [], _ => rfl
  | ⟨_, none⟩ :: fs, h => by rw [graftFormals, graftFormals_of_unbound fs h]
  | ⟨_, some n⟩ :: fs, h => by
    rw [namesFormals, unbound_append] at h
    rw [graftFormals, graft_of_unbound n h.1, graftFormals_of_unbound fs h.2]

end

end Node

end Deferred
