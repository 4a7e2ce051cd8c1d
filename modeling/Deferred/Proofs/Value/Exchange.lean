import Deferred.Proofs.Value.Map
import Deferred.Proofs.Value.Sameness
import Deferred.Proofs.Vector.Operations

/-!
# Exchanging vectors

A tree over exchanges is two trees at once, which differ only in vectors that have the same
elements. The two are the same, wherever in them the vectors stand.
-/
set_option autoImplicit false

namespace Deferred

variable {k : Kind} {st : Store}

namespace Store

/-- A vector of the store and one to put in its place, with the same elements. -/
structure Exchange (st : Store) (k : Kind) where
  before : Vec k
  after : Vec k
  sound_before : before.Sound st
  sound_after : after.Sound st
  elements : List.Forall₂ (fun x y => k.same x y = true) (before.elements st) (after.elements st)

theorem Exchange.same (e : st.Exchange k) : e.before.same e.after st = true :=
  (Vec.same_iff_forall₂ e.sound_before e.sound_after).2 e.elements

mutual

theorem sameValue_exchange : ∀ v : Value st.Exchange,
    SameValue st (v.mapVectors Exchange.before) (v.mapVectors Exchange.after)
  | .null => .null
  | .vector e => .vector e.same
  | .symbol name => .symbol name
  | .language n => .language (sameNode_exchange n)
  | .promise id _ scope => .promise id _ _ scope scope
  | .bundle es => .bundle (sameBundle_exchange es)
  | .list (.plain vs) => .plain (sameValues_exchange vs)
  | .list (.labelled es) => .labelled (sameEntries_exchange es)
  | .environment id => .environment id
  | .closure id _ _ scope => .closure id _ _ _ _ scope scope

theorem sameNode_exchange : ∀ n : Expression st.Exchange,
    SameNode st (n.mapVectors Exchange.before) (n.mapVectors Exchange.after)
  | .constant v => .constant (sameValue_exchange v)
  | .symbol name => .symbol name
  | .call f as => .call f (sameArguments_exchange as)
  | .block ss => .block (sameNodes_exchange ss)
  | .ifElse c t none => .ifThen (sameNode_exchange c) (sameNode_exchange t)
  | .ifElse c t (some e) =>
    .ifElse (sameNode_exchange c) (sameNode_exchange t) (sameNode_exchange e)
  | .whileLoop c b => .whileLoop (sameNode_exchange c) (sameNode_exchange b)
  | .repeatLoop b => .repeatLoop (sameNode_exchange b)
  | .forLoop x s b => .forLoop x (sameNode_exchange s) (sameNode_exchange b)
  | .function fs b => .function (sameFormals_exchange fs) (sameNode_exchange b)
  | .assign x v isSuper => .assign x (sameNode_exchange v) isSuper
  | .binary op l r => .binary op (sameNode_exchange l) (sameNode_exchange r)
  | .unary op x => .unary op (sameNode_exchange x)
  | .index b as exact => .index (sameNode_exchange b) (sameArguments_exchange as) exact
  | .field b x => .field (sameNode_exchange b) x
  | .nextLoop => .nextLoop
  | .breakLoop => .breakLoop

theorem sameArguments_exchange : ∀ as : List (Argument (Expression st.Exchange)),
    SameArguments st (mapVectorsOfArguments Exchange.before as)
      (mapVectorsOfArguments Exchange.after as)
  | [] => .nil
  | ⟨name, none⟩ :: as => .hole name (sameArguments_exchange as)
  | ⟨name, some n⟩ :: as => .cons name (sameNode_exchange n) (sameArguments_exchange as)

theorem sameNodes_exchange : ∀ ns : List (Expression st.Exchange),
    SameNodes st (mapVectorsOfNodes Exchange.before ns) (mapVectorsOfNodes Exchange.after ns)
  | [] => .nil
  | n :: ns => .cons (sameNode_exchange n) (sameNodes_exchange ns)

theorem sameFormals_exchange : ∀ fs : List (Formal (Expression st.Exchange)),
    SameFormals st (mapVectorsOfFormals Exchange.before fs) (mapVectorsOfFormals Exchange.after fs)
  | [] => .nil
  | ⟨name, none⟩ :: fs => .required name (sameFormals_exchange fs)
  | ⟨name, some n⟩ :: fs => .cons name (sameNode_exchange n) (sameFormals_exchange fs)

theorem sameBundle_exchange : ∀ es : List (Argument (Value st.Exchange)),
    SameBundle st (mapVectorsOfBundle Exchange.before es) (mapVectorsOfBundle Exchange.after es)
  | [] => .nil
  | ⟨name, none⟩ :: es => .absent name (sameBundle_exchange es)
  | ⟨name, some v⟩ :: es => .cons name (sameValue_exchange v) (sameBundle_exchange es)

theorem sameValues_exchange : ∀ vs : List (Value st.Exchange),
    SameValues st (mapVectorsOfValues Exchange.before vs) (mapVectorsOfValues Exchange.after vs)
  | [] => .nil
  | v :: vs => .cons (sameValue_exchange v) (sameValues_exchange vs)

theorem sameEntries_exchange : ∀ es : List (Entry (Value st.Exchange)),
    SameEntries st (mapVectorsOfEntries Exchange.before es) (mapVectorsOfEntries Exchange.after es)
  | [] => .nil
  | ⟨label, v⟩ :: es => .cons label (sameValue_exchange v) (sameEntries_exchange es)

end

end Store

namespace Vec

/-- Vectors that can be exchanged for one another in the store. -/
def Exchangeable (st : Store) (v w : Vec k) : Prop :=
  ∃ e : st.Exchange k, e.before = v ∧ e.after = w

theorem Sound.exchangeable {v w : Vec k} (hv : v.Sound st) (hw : w.Sound st)
    (h : List.Forall₂ (fun x y => k.same x y = true) (v.elements st) (w.elements st)) :
    v.Exchangeable st w :=
  ⟨⟨v, w, hv, hw, h⟩, rfl, rfl⟩

theorem Sound.exchangeable_of_eq {v w : Vec k} (hv : v.Sound st) (hw : w.Sound st)
    (h : v.elements st = w.elements st) : v.Exchangeable st w :=
  hv.exchangeable hw (h ▸ List.forall₂_same.2 fun x _ => k.same_self x)

theorem Makes.exchangeable {v : Vec k} {made : Vec k × Store} (h : Makes st made (v.plain st))
    (hv : v.Sound st) :
    v.Exchangeable made.2 made.1 ∧
      ∀ {j : Kind} (u : Vec j), u.Sound st → u.Exchangeable made.2 u := by
  have hstay : ∀ {j : Kind} (u : Vec j), u.Sound st → u.Sound made.2 ∧
      u.plain made.2 = u.plain st := fun u hu => hu.keeps fun a _ => h.keeps a.2
  obtain ⟨hvs, hplain⟩ := hstay v hv
  refine ⟨hvs.exchangeable_of_eq h.sound ?_, fun u hu => ?_⟩
  · rw [hvs.elements_eq, h.sound.elements_eq, h.plain_eq, hplain]
  · exact (hstay u hu).1.exchangeable_of_eq (hstay u hu).1 rfl

end Vec

end Deferred
