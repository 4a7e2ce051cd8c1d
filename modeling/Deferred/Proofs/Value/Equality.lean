import Deferred.Value.Equality

set_option autoImplicit false

namespace Deferred

theorem Kind.sameOption_self (k : Kind) (x : Option k.Elem) : k.sameOption x x = true := by
  cases x with
  | none => rfl
  | some x => exact k.same_self x

theorem Vec.same_iff {k : Kind} (v w : Vec k) (st : Store) :
    v.same w st = true ↔
      v.size st = w.size st ∧
        ∀ i < v.size st, k.sameOption (v.element? st i) (w.element? st i) = true := by
  simp [Vec.same, Nat.all_eq_finRange_all, Fin.forall_iff]

theorem Vec.same_self {k : Kind} (v : Vec k) (st : Store) : v.same v st = true :=
  (v.same_iff v st).2 ⟨rfl, fun i _ => k.sameOption_self (v.element? st i)⟩

theorem Value.vector?_self {V : Kind → Type} {k : Kind} (v : V k) :
    (vector v : Value V).vector? k = some v := by
  simp [vector?]

namespace Store

variable (st : Store)

mutual

theorem sameValue_self : ∀ v : Value, st.sameValue v v = true
  | .null => by rw [sameValue]
  | .vector v => by
    rw [sameValue, Value.vector?_self]
    exact v.same_self st
  | .symbol _ => by simp only [sameValue, decide_true]
  | .language n => by rw [sameValue, sameNode_self n]
  | .promise _ _ _ => by simp only [sameValue, decide_true]
  | .bundle es => by rw [sameValue, sameBundle_self es]
  | .list (.plain vs) => by rw [sameValue, sameValues_self vs]
  | .list (.labelled es) => by rw [sameValue, sameEntries_self es]
  | .environment _ => by simp only [sameValue, decide_true]
  | .closure _ _ _ _ => by simp only [sameValue, decide_true]

theorem sameNode_self : ∀ n : Expression, st.sameNode n n = true
  | .constant v => by rw [sameNode, sameValue_self v]
  | .symbol _ => by simp only [sameNode, decide_true]
  | .call _ as => by simp only [sameNode, sameArguments_self as, decide_true, Bool.and_self]
  | .block ss => by rw [sameNode, sameNodes_self ss]
  | .ifElse c t none => by
    simp only [sameNode, sameNode_self c, sameNode_self t, Bool.and_self]
  | .ifElse c t (some e) => by
    simp only [sameNode, sameNode_self c, sameNode_self t, sameNode_self e, Bool.and_self]
  | .whileLoop c b => by simp only [sameNode, sameNode_self c, sameNode_self b, Bool.and_self]
  | .repeatLoop b => by rw [sameNode, sameNode_self b]
  | .forLoop _ s b => by
    simp only [sameNode, sameNode_self s, sameNode_self b, decide_true, Bool.and_self]
  | .function fs b => by
    simp only [sameNode, sameFormals_self fs, sameNode_self b, Bool.and_self]
  | .assign _ v _ => by simp only [sameNode, sameNode_self v, decide_true, Bool.and_self]
  | .binary _ l r => by
    simp only [sameNode, sameNode_self l, sameNode_self r, decide_true, Bool.and_self]
  | .unary _ x => by simp only [sameNode, sameNode_self x, decide_true, Bool.and_self]
  | .index b as _ => by
    simp only [sameNode, sameNode_self b, sameArguments_self as, decide_true, Bool.and_self]
  | .field b _ => by simp only [sameNode, sameNode_self b, decide_true, Bool.and_self]
  | .nextLoop => by rw [sameNode]
  | .breakLoop => by rw [sameNode]

theorem sameArguments_self : ∀ as : List (Argument Expression), st.sameArguments as as = true
  | [] => by rw [sameArguments]
  | ⟨_, none⟩ :: as => by
    simp only [sameArguments, sameArguments_self as, decide_true, Bool.and_self]
  | ⟨_, some n⟩ :: as => by
    simp only [sameArguments, sameNode_self n, sameArguments_self as, decide_true, Bool.and_self]

theorem sameNodes_self : ∀ ns : List Expression, st.sameNodes ns ns = true
  | [] => by rw [sameNodes]
  | n :: ns => by simp only [sameNodes, sameNode_self n, sameNodes_self ns, Bool.and_self]

theorem sameFormals_self : ∀ fs : List (Formal Expression), st.sameFormals fs fs = true
  | [] => by rw [sameFormals]
  | ⟨_, none⟩ :: fs => by
    simp only [sameFormals, sameFormals_self fs, decide_true, Bool.and_self]
  | ⟨_, some n⟩ :: fs => by
    simp only [sameFormals, sameNode_self n, sameFormals_self fs, decide_true, Bool.and_self]

theorem sameBundle_self : ∀ es : List (Argument Value), st.sameBundle es es = true
  | [] => by rw [sameBundle]
  | ⟨_, none⟩ :: es => by
    simp only [sameBundle, sameBundle_self es, decide_true, Bool.and_self]
  | ⟨_, some v⟩ :: es => by
    simp only [sameBundle, sameValue_self v, sameBundle_self es, decide_true, Bool.and_self]

theorem sameValues_self : ∀ vs : List Value, st.sameValues vs vs = true
  | [] => by rw [sameValues]
  | v :: vs => by simp only [sameValues, sameValue_self v, sameValues_self vs, Bool.and_self]

theorem sameEntries_self : ∀ es : List (Entry Value), st.sameEntries es es = true
  | [] => by rw [sameEntries]
  | ⟨_, v⟩ :: es => by
    simp only [sameEntries, sameValue_self v, sameEntries_self es, decide_true, Bool.and_self]

end

end Store

end Deferred
