import Deferred.Fault

set_option autoImplicit false

namespace Deferred

namespace Heap

/-- Two heaps with the same cells and the same global environments. -/
structure Resembles (h h' : Heap) : Prop where
  store_eq : h'.store = h.store
  isGlobal_eq (id : EnvironmentId) : h'.isGlobal id = h.isGlobal id

namespace Resembles

variable {h h' : Heap}

mutual

theorem valueText_eq (hh : h.Resembles h') : ∀ v : Value, h'.valueText v = h.valueText v
  | .null => rfl
  | .vector _ => by rw [valueText, valueText, hh.store_eq]
  | .symbol _ => rfl
  | .language n => by rw [valueText, valueText, hh.nodeText_eq n]
  | .promise _ _ _ => rfl
  | .bundle _ => rfl
  | .list (.plain vs) => by rw [valueText, valueText, hh.valueTexts_eq vs]
  | .list (.labelled es) => by rw [valueText, valueText, hh.entryTexts_eq es]
  | .environment id => by rw [valueText, valueText, hh.isGlobal_eq id]
  | .closure _ fs b _ => by rw [valueText, valueText, hh.formalTexts_eq fs, hh.nodeText_eq b]

theorem nodeText_eq (hh : h.Resembles h') : ∀ n : Expression, h'.nodeText n = h.nodeText n
  | .constant v => by rw [nodeText, nodeText, hh.valueText_eq v]
  | .symbol _ => rfl
  | .call _ as => by rw [nodeText, nodeText, hh.argumentTexts_eq as]
  | .block ss => by rw [nodeText, nodeText, hh.nodeTexts_eq ss]
  | .ifElse c t none => by rw [nodeText, nodeText, hh.nodeText_eq c, hh.nodeText_eq t]
  | .ifElse c t (some e) => by
    rw [nodeText, nodeText, hh.nodeText_eq c, hh.nodeText_eq t, hh.nodeText_eq e]
  | .whileLoop c b => by rw [nodeText, nodeText, hh.nodeText_eq c, hh.nodeText_eq b]
  | .repeatLoop b => by rw [nodeText, nodeText, hh.nodeText_eq b]
  | .forLoop _ s b => by rw [nodeText, nodeText, hh.nodeText_eq s, hh.nodeText_eq b]
  | .function fs b => by rw [nodeText, nodeText, hh.formalTexts_eq fs, hh.nodeText_eq b]
  | .assign _ v _ => by rw [nodeText, nodeText, hh.nodeText_eq v]
  | .binary _ l r => by rw [nodeText, nodeText, hh.nodeText_eq l, hh.nodeText_eq r]
  | .unary _ x => by rw [nodeText, nodeText, hh.nodeText_eq x]
  | .index b as true => by rw [nodeText, nodeText, hh.nodeText_eq b, hh.argumentTexts_eq as]
  | .index b as false => by rw [nodeText, nodeText, hh.nodeText_eq b, hh.argumentTexts_eq as]
  | .field b _ => by rw [nodeText, nodeText, hh.nodeText_eq b]
  | .nextLoop => rfl
  | .breakLoop => rfl

theorem argumentTexts_eq (hh : h.Resembles h') : ∀ as : List (Argument Expression),
    h'.argumentTexts as = h.argumentTexts as
  | [] => rfl
  | ⟨_, none⟩ :: as => by rw [argumentTexts, argumentTexts, hh.argumentTexts_eq as]
  | ⟨_, some n⟩ :: as => by
    rw [argumentTexts, argumentTexts, hh.nodeText_eq n, hh.argumentTexts_eq as]

theorem nodeTexts_eq (hh : h.Resembles h') : ∀ ns : List Expression,
    h'.nodeTexts ns = h.nodeTexts ns
  | [] => rfl
  | n :: ns => by rw [nodeTexts, nodeTexts, hh.nodeText_eq n, hh.nodeTexts_eq ns]

theorem formalTexts_eq (hh : h.Resembles h') : ∀ fs : List (Formal Expression),
    h'.formalTexts fs = h.formalTexts fs
  | [] => rfl
  | ⟨_, none⟩ :: fs => by rw [formalTexts, formalTexts, hh.formalTexts_eq fs]
  | ⟨_, some n⟩ :: fs => by rw [formalTexts, formalTexts, hh.nodeText_eq n, hh.formalTexts_eq fs]

theorem valueTexts_eq (hh : h.Resembles h') : ∀ vs : List Value,
    h'.valueTexts vs = h.valueTexts vs
  | [] => rfl
  | v :: vs => by rw [valueTexts, valueTexts, hh.valueText_eq v, hh.valueTexts_eq vs]

theorem entryTexts_eq (hh : h.Resembles h') : ∀ es : List (Entry Value),
    h'.entryTexts es = h.entryTexts es
  | [] => rfl
  | ⟨_, v⟩ :: es => by rw [entryTexts, entryTexts, hh.valueText_eq v, hh.entryTexts_eq es]

end

section

variable (hh : h.Resembles h')

include hh

theorem describe_eq (v : Value) : h'.describe v = h.describe v := by
  cases v with
  | promise id n scope => rw [describe, describe, hh.nodeText_eq n]
  | language n => rw [describe, describe, hh.nodeText_eq n]
  | _ => rfl

theorem argumentText_eq (a : Argument Expression) : h'.argumentText a = h.argumentText a := by
  have htext : h'.nodeText = h.nodeText := funext hh.nodeText_eq
  rw [argumentText, argumentText, htext]

theorem message_eq (e : Fault) : e.message h' = e.message h := by
  cases e with
  | targetNotName f v =>
    dsimp only [Fault.message]
    rw [hh.describe_eq v]
  | notEvaluable n =>
    dsimp only [Fault.message]
    rw [hh.nodeText_eq n]
  | unusedArgument a =>
    dsimp only [Fault.message]
    rw [hh.argumentText_eq a]
  | forcedTwice n =>
    dsimp only [Fault.message]
    rw [hh.nodeText_eq n]
  | _ => rfl

end

end Resembles

end Heap

end Deferred
