import Deferred.Substitution

set_option autoImplicit false

namespace Deferred

variable {V : Kind → Type}

namespace Node

mutual

theorem duplicateConstant_eq : ∀ v : Value V, duplicateConstant v = v
  | .language n => by rw [duplicateConstant, duplicate_eq n]
  | .null => rfl
  | .vector _ => rfl
  | .symbol _ => rfl
  | .promise _ _ _ => rfl
  | .bundle _ => rfl
  | .list _ => rfl
  | .environment _ => rfl
  | .closure _ _ _ _ => rfl

theorem duplicate_eq : ∀ n : Expression V, n.duplicate = n
  | .constant v => by rw [duplicate, duplicateConstant_eq v]
  | .symbol _ => rfl
  | .call f as => by rw [duplicate, duplicateArguments_eq as]
  | .block ss => by rw [duplicate, duplicateNodes_eq ss]
  | .ifElse c t none => by rw [duplicate, duplicate_eq c, duplicate_eq t]
  | .ifElse c t (some e) => by rw [duplicate, duplicate_eq c, duplicate_eq t, duplicate_eq e]
  | .whileLoop c b => by rw [duplicate, duplicate_eq c, duplicate_eq b]
  | .repeatLoop b => by rw [duplicate, duplicate_eq b]
  | .forLoop _ s b => by rw [duplicate, duplicate_eq s, duplicate_eq b]
  | .function fs b => by rw [duplicate, duplicateFormals_eq fs, duplicate_eq b]
  | .assign _ v _ => by rw [duplicate, duplicate_eq v]
  | .binary _ l r => by rw [duplicate, duplicate_eq l, duplicate_eq r]
  | .unary _ x => by rw [duplicate, duplicate_eq x]
  | .index b as _ => by rw [duplicate, duplicate_eq b, duplicateArguments_eq as]
  | .field b _ => by rw [duplicate, duplicate_eq b]
  | .nextLoop => rfl
  | .breakLoop => rfl

theorem duplicateArguments_eq :
    ∀ as : List (Argument (Expression V)), duplicateArguments as = as
  | [] => rfl
  | ⟨_, none⟩ :: as => by rw [duplicateArguments, duplicateArguments_eq as]
  | ⟨_, some n⟩ :: as => by rw [duplicateArguments, duplicate_eq n, duplicateArguments_eq as]

theorem duplicateNodes_eq : ∀ ns : List (Expression V), duplicateNodes ns = ns
  | [] => rfl
  | n :: ns => by rw [duplicateNodes, duplicate_eq n, duplicateNodes_eq ns]

theorem duplicateFormals_eq : ∀ fs : List (Formal (Expression V)), duplicateFormals fs = fs
  | [] => rfl
  | ⟨_, none⟩ :: fs => by rw [duplicateFormals, duplicateFormals_eq fs]
  | ⟨_, some n⟩ :: fs => by rw [duplicateFormals, duplicate_eq n, duplicateFormals_eq fs]

end

end Node

namespace Value

theorem tree_promise (id : PromiseId) (n : Expression V) (scope : Option EnvironmentId) :
    (promise id n scope).tree = n := n.duplicate_eq

theorem tree_language (n : Expression V) : (language n).tree = n := n.duplicate_eq

end Value

end Deferred
