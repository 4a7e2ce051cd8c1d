import Deferred.Heap

set_option autoImplicit false

namespace Deferred.Store

mutual

def sameValue (st : Store) : Value → Value → Bool
  | .null, .null => true
  | .vector (k := k) v, w =>
    match w.vector? k with
    | some w => v.same w st
    | none => false
  | .symbol a, .symbol b => a = b
  | .language m, .language n => sameNode st m n
  | .promise i _ _, .promise j _ _ => i = j
  | .bundle es, .bundle fs => sameBundle st es fs
  | .list (.plain vs), .list (.plain ws) => sameValues st vs ws
  | .list (.labelled es), .list (.labelled fs) => sameEntries st es fs
  | .environment i, .environment j => i = j
  | .closure i _ _ _, .closure j _ _ _ => i = j
  | _, _ => false

def sameNode (st : Store) : Expression → Expression → Bool
  | .constant v, .constant w => sameValue st v w
  | .symbol a, .symbol b => a = b
  | .call f as, .call g bs => f = g && sameArguments st as bs
  | .block ms, .block ns => sameNodes st ms ns
  | .ifElse c t none, .ifElse c' t' none => sameNode st c c' && sameNode st t t'
  | .ifElse c t (some e), .ifElse c' t' (some e') =>
    sameNode st c c' && sameNode st t t' && sameNode st e e'
  | .whileLoop c b, .whileLoop c' b' => sameNode st c c' && sameNode st b b'
  | .repeatLoop b, .repeatLoop b' => sameNode st b b'
  | .forLoop x s b, .forLoop x' s' b' => x = x' && sameNode st s s' && sameNode st b b'
  | .function fs b, .function fs' b' => sameFormals st fs fs' && sameNode st b b'
  | .assign x v isSuper, .assign x' v' isSuper' =>
    x = x' && sameNode st v v' && isSuper = isSuper'
  | .binary op l r, .binary op' l' r' => op = op' && sameNode st l l' && sameNode st r r'
  | .unary op x, .unary op' x' => op = op' && sameNode st x x'
  | .index b as exact, .index b' as' exact' =>
    sameNode st b b' && sameArguments st as as' && exact = exact'
  | .field b x, .field b' x' => sameNode st b b' && x = x'
  | .nextLoop, .nextLoop => true
  | .breakLoop, .breakLoop => true
  | _, _ => false

def sameArguments (st : Store) : List (Argument Expression) → List (Argument Expression) → Bool
  | [], [] => true
  | ⟨a, none⟩ :: as, ⟨b, none⟩ :: bs => a = b && sameArguments st as bs
  | ⟨a, some m⟩ :: as, ⟨b, some n⟩ :: bs => a = b && sameNode st m n && sameArguments st as bs
  | _, _ => false

def sameNodes (st : Store) : List Expression → List Expression → Bool
  | [], [] => true
  | m :: ms, n :: ns => sameNode st m n && sameNodes st ms ns
  | _, _ => false

def sameFormals (st : Store) : List (Formal Expression) → List (Formal Expression) → Bool
  | [], [] => true
  | ⟨a, none⟩ :: as, ⟨b, none⟩ :: bs => a = b && sameFormals st as bs
  | ⟨a, some m⟩ :: as, ⟨b, some n⟩ :: bs => a = b && sameNode st m n && sameFormals st as bs
  | _, _ => false

def sameBundle (st : Store) : List (Argument Value) → List (Argument Value) → Bool
  | [], [] => true
  | ⟨a, none⟩ :: as, ⟨b, none⟩ :: bs => a = b && sameBundle st as bs
  | ⟨a, some v⟩ :: as, ⟨b, some w⟩ :: bs => a = b && sameValue st v w && sameBundle st as bs
  | _, _ => false

def sameValues (st : Store) : List Value → List Value → Bool
  | [], [] => true
  | v :: vs, w :: ws => sameValue st v w && sameValues st vs ws
  | _, _ => false

def sameEntries (st : Store) : List (Entry Value) → List (Entry Value) → Bool
  | [], [] => true
  | ⟨a, v⟩ :: as, ⟨b, w⟩ :: bs => a = b && sameValue st v w && sameEntries st as bs
  | _, _ => false

end

end Deferred.Store
