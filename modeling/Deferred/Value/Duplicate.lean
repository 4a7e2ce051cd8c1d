import Deferred.Value

/-!
# Independent copies of expressions

`Node.duplicate` rebuilds a tree from copies of its parts. A quoted expression held by a constant is
copied too, at every level of quoting; any other constant keeps the value that it holds.
-/
set_option autoImplicit false

namespace Deferred.Node

variable {V : Kind → Type}

mutual

def duplicateConstant : Value V → Value V
  | .language n => .language (duplicate n)
  | v => v

def duplicate : Expression V → Expression V
  | .constant v => .constant (duplicateConstant v)
  | .symbol name => .symbol name
  | .call f as => .call f (duplicateArguments as)
  | .block ss => .block (duplicateNodes ss)
  | .ifElse c t none => .ifElse (duplicate c) (duplicate t) none
  | .ifElse c t (some e) => .ifElse (duplicate c) (duplicate t) (some (duplicate e))
  | .whileLoop c b => .whileLoop (duplicate c) (duplicate b)
  | .repeatLoop b => .repeatLoop (duplicate b)
  | .forLoop x s b => .forLoop x (duplicate s) (duplicate b)
  | .function fs b => .function (duplicateFormals fs) (duplicate b)
  | .assign x v isSuper => .assign x (duplicate v) isSuper
  | .binary op l r => .binary op (duplicate l) (duplicate r)
  | .unary op x => .unary op (duplicate x)
  | .index b as exact => .index (duplicate b) (duplicateArguments as) exact
  | .field b x => .field (duplicate b) x
  | .nextLoop => .nextLoop
  | .breakLoop => .breakLoop

def duplicateArguments : List (Argument (Expression V)) → List (Argument (Expression V))
  | [] => []
  | ⟨name, none⟩ :: as => ⟨name, none⟩ :: duplicateArguments as
  | ⟨name, some n⟩ :: as => ⟨name, some (duplicate n)⟩ :: duplicateArguments as

def duplicateNodes : List (Expression V) → List (Expression V)
  | [] => []
  | n :: ns => duplicate n :: duplicateNodes ns

def duplicateFormals : List (Formal (Expression V)) → List (Formal (Expression V))
  | [] => []
  | ⟨name, none⟩ :: fs => ⟨name, none⟩ :: duplicateFormals fs
  | ⟨name, some n⟩ :: fs => ⟨name, some (duplicate n)⟩ :: duplicateFormals fs

end

end Deferred.Node
