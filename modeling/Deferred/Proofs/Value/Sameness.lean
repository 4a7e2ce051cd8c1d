import Mathlib.Data.List.Forall2
import Deferred.Proofs.Value.Equality
import Deferred.Proofs.Vector.Plain

set_option autoImplicit false

namespace Deferred

namespace Double

theorem eq_of_magnitude_eq {x y : Double} (h : x.magnitude = y.magnitude)
    (hs : x.isNegative = y.isNegative) : x = y := by
  have hx : x.word < 18446744073709551616 := x.bits.toNat_lt
  have hy : y.word < 18446744073709551616 := y.bits.toNat_lt
  have hword : x.word = y.word := by
    simp only [magnitude, isNegative, decide_eq_decide] at h hs
    have hshift : 1 <<< 63 = 9223372036854775808 := rfl
    rw [hshift] at h hs
    omega
  cases x
  cases y
  rw [mk.injEq]
  exact UInt64.toNat_inj.mp hword

/-- Numbers that are equal and not the same bits are the two zeros. -/
theorem key_eq_iff {x y : Double} :
    x.key = y.key ↔ x = y ∨ x.magnitude = 0 ∧ y.magnitude = 0 := by
  constructor
  · intro h
    by_cases hs : x.isNegative = y.isNegative
    · refine Or.inl (eq_of_magnitude_eq ?_ hs)
      simp only [key, hs] at h
      split at h <;> omega
    · right
      cases hx : x.isNegative <;> cases hy : y.isNegative
      · exact absurd (hx.trans hy.symm) hs
      · simp only [key, hx, hy, if_true, Bool.false_eq_true, if_false] at h
        omega
      · simp only [key, hx, hy, if_true, Bool.false_eq_true, if_false] at h
        omega
      · exact absurd (hx.trans hy.symm) hs
  · rintro (rfl | ⟨hx, hy⟩)
    · rfl
    · simp [key, hx, hy]

theorem same_iff (x y : Double) :
    Kind.double.same x y = true ↔ x = y ∨ x.magnitude = 0 ∧ y.magnitude = 0 := by
  have hzero : ∀ z : Double, z.magnitude = 0 → z.isNaN = false := by
    intro z hz
    rw [isNaN, hz]
    rfl
  simp only [Kind.same, numEq, Bool.or_eq_true, Bool.and_eq_true, Bool.not_eq_true',
    decide_eq_true_eq, key_eq_iff]
  constructor
  · rintro (h | ⟨-, h⟩)
    · exact Or.inl h
    · exact h
  · rintro (h | ⟨hx, hy⟩)
    · exact Or.inl h
    · exact Or.inr ⟨⟨hzero x hx, hzero y hy⟩, Or.inr ⟨hx, hy⟩⟩

end Double

namespace Kind

theorem same_symm {k : Kind} {x y : k.Elem} (h : k.same x y = true) : k.same y x = true := by
  cases k with
  | int => exact decide_eq_true (of_decide_eq_true h).symm
  | double =>
    rw [Double.same_iff] at h ⊢
    exact h.imp Eq.symm And.symm
  | logical => exact decide_eq_true (of_decide_eq_true h).symm

theorem same_trans {k : Kind} {x y z : k.Elem} (h : k.same x y = true) (h' : k.same y z = true) :
    k.same x z = true := by
  cases k with
  | int => exact decide_eq_true ((of_decide_eq_true h).trans (of_decide_eq_true h'))
  | double =>
    rw [Double.same_iff] at h h' ⊢
    rcases h with rfl | ⟨hx, hy⟩
    · exact h'
    · rcases h' with rfl | ⟨-, hz⟩
      · exact Or.inr ⟨hx, hy⟩
      · exact Or.inr ⟨hx, hz⟩
  | logical => exact decide_eq_true ((of_decide_eq_true h).trans (of_decide_eq_true h'))

theorem sameOption_symm {k : Kind} {x y : Option k.Elem} (h : k.sameOption x y = true) :
    k.sameOption y x = true := by
  cases x <;> cases y <;> simp only [sameOption, Bool.false_eq_true] at h ⊢
  exact same_symm h

theorem sameOption_trans {k : Kind} {x y z : Option k.Elem} (h : k.sameOption x y = true)
    (h' : k.sameOption y z = true) : k.sameOption x z = true := by
  cases x <;> cases y <;> cases z <;> simp only [sameOption, Bool.false_eq_true] at h h' ⊢
  exact same_trans h h'

end Kind

namespace Vec

variable {k : Kind} {st : Store}

theorem same_symm {v w : Vec k} (h : v.same w st = true) : w.same v st = true := by
  rw [same_iff] at h ⊢
  obtain ⟨hsize, hsame⟩ := h
  exact ⟨hsize.symm, fun i hi => k.sameOption_symm (hsame i (hsize ▸ hi))⟩

theorem same_trans {u v w : Vec k} (h : u.same v st = true) (h' : v.same w st = true) :
    u.same w st = true := by
  rw [same_iff] at h h' ⊢
  obtain ⟨hsize, hsame⟩ := h
  obtain ⟨hsize', hsame'⟩ := h'
  exact ⟨hsize.trans hsize', fun i hi => k.sameOption_trans (hsame i hi) (hsame' i (hsize ▸ hi))⟩

theorem same_iff_forall₂ {v w : Vec k} (hv : v.Sound st) (hw : w.Sound st) :
    v.same w st = true ↔
      List.Forall₂ (fun x y => k.same x y = true) (v.elements st) (w.elements st) := by
  rw [same_iff, List.forall₂_iff_get, hv.elements_eq, hw.elements_eq, hv.size_eq, hw.size_eq]
  refine and_congr_right fun hsize => ?_
  simp only [hv.reads.element_eq, hw.reads.element_eq, List.get_eq_getElem]
  constructor
  · intro h i hi hi'
    simpa [Kind.sameOption, hi, hi'] using h i hi
  · intro h i hi
    simpa [Kind.sameOption, hi, hsize ▸ hi] using h i hi (hsize ▸ hi)

end Vec

namespace Store

mutual

/-- Values that are the same in a store. -/
inductive SameValue (st : Store) : Value → Value → Prop
  | null : SameValue st .null .null
  | vector {k : Kind} {v w : Vec k} (elements : v.same w st = true) :
      SameValue st (.vector v) (.vector w)
  | symbol (name : Symbol) : SameValue st (.symbol name) (.symbol name)
  | language {m n : Expression} (expression : SameNode st m n) :
      SameValue st (.language m) (.language n)
  | promise (id : PromiseId) (m n : Expression) (scope scope' : Option EnvironmentId) :
      SameValue st (.promise id m scope) (.promise id n scope')
  | bundle {es fs : List (Argument Value)} (entries : SameBundle st es fs) :
      SameValue st (.bundle es) (.bundle fs)
  | plain {vs ws : List Value} (values : SameValues st vs ws) :
      SameValue st (.list (.plain vs)) (.list (.plain ws))
  | labelled {es fs : List (Entry Value)} (entries : SameEntries st es fs) :
      SameValue st (.list (.labelled es)) (.list (.labelled fs))
  | environment (id : EnvironmentId) : SameValue st (.environment id) (.environment id)
  | closure (id : ClosureId) (fs gs : List (Formal Expression)) (b c : Expression)
      (scope scope' : EnvironmentId) :
      SameValue st (.closure id fs b scope) (.closure id gs c scope')

inductive SameNode (st : Store) : Expression → Expression → Prop
  | constant {v w : Value} (value : SameValue st v w) : SameNode st (.constant v) (.constant w)
  | symbol (name : Symbol) : SameNode st (.symbol name) (.symbol name)
  | call {as bs : List (Argument Expression)} (f : Symbol) (arguments : SameArguments st as bs) :
      SameNode st (.call f as) (.call f bs)
  | block {ms ns : List Expression} (statements : SameNodes st ms ns) :
      SameNode st (.block ms) (.block ns)
  | ifThen {c d t u : Expression} (condition : SameNode st c d) (branch : SameNode st t u) :
      SameNode st (.ifElse c t none) (.ifElse d u none)
  | ifElse {c d t u e f : Expression} (condition : SameNode st c d) (branch : SameNode st t u)
      (other : SameNode st e f) : SameNode st (.ifElse c t (some e)) (.ifElse d u (some f))
  | whileLoop {c d b a : Expression} (condition : SameNode st c d) (body : SameNode st b a) :
      SameNode st (.whileLoop c b) (.whileLoop d a)
  | repeatLoop {b c : Expression} (body : SameNode st b c) :
      SameNode st (.repeatLoop b) (.repeatLoop c)
  | forLoop {s t b c : Expression} (x : Symbol) (sequence : SameNode st s t)
      (body : SameNode st b c) : SameNode st (.forLoop x s b) (.forLoop x t c)
  | function {fs gs : List (Formal Expression)} {b c : Expression}
      (formals : SameFormals st fs gs) (body : SameNode st b c) :
      SameNode st (.function fs b) (.function gs c)
  | assign {v w : Expression} (x : Symbol) (value : SameNode st v w) (isSuper : Bool) :
      SameNode st (.assign x v isSuper) (.assign x w isSuper)
  | binary {l m r s : Expression} (op : BinaryOperator) (left : SameNode st l m)
      (right : SameNode st r s) : SameNode st (.binary op l r) (.binary op m s)
  | unary {x y : Expression} (op : UnaryOperator) (operand : SameNode st x y) :
      SameNode st (.unary op x) (.unary op y)
  | index {b c : Expression} {as bs : List (Argument Expression)} (base : SameNode st b c)
      (arguments : SameArguments st as bs) (exact : Bool) :
      SameNode st (.index b as exact) (.index c bs exact)
  | field {b c : Expression} (base : SameNode st b c) (x : Symbol) :
      SameNode st (.field b x) (.field c x)
  | nextLoop : SameNode st .nextLoop .nextLoop
  | breakLoop : SameNode st .breakLoop .breakLoop

inductive SameArguments (st : Store) :
    List (Argument Expression) → List (Argument Expression) → Prop
  | nil : SameArguments st [] []
  | hole {as bs : List (Argument Expression)} (name : Option Symbol)
      (rest : SameArguments st as bs) : SameArguments st (⟨name, none⟩ :: as) (⟨name, none⟩ :: bs)
  | cons {as bs : List (Argument Expression)} {m n : Expression} (name : Option Symbol)
      (value : SameNode st m n) (rest : SameArguments st as bs) :
      SameArguments st (⟨name, some m⟩ :: as) (⟨name, some n⟩ :: bs)

inductive SameNodes (st : Store) : List Expression → List Expression → Prop
  | nil : SameNodes st [] []
  | cons {ms ns : List Expression} {m n : Expression} (node : SameNode st m n)
      (rest : SameNodes st ms ns) : SameNodes st (m :: ms) (n :: ns)

inductive SameFormals (st : Store) : List (Formal Expression) → List (Formal Expression) → Prop
  | nil : SameFormals st [] []
  | required {as bs : List (Formal Expression)} (name : Symbol)
      (rest : SameFormals st as bs) : SameFormals st (⟨name, none⟩ :: as) (⟨name, none⟩ :: bs)
  | cons {as bs : List (Formal Expression)} {m n : Expression} (name : Symbol)
      (default : SameNode st m n) (rest : SameFormals st as bs) :
      SameFormals st (⟨name, some m⟩ :: as) (⟨name, some n⟩ :: bs)

inductive SameBundle (st : Store) : List (Argument Value) → List (Argument Value) → Prop
  | nil : SameBundle st [] []
  | absent {es fs : List (Argument Value)} (name : Option Symbol)
      (rest : SameBundle st es fs) : SameBundle st (⟨name, none⟩ :: es) (⟨name, none⟩ :: fs)
  | cons {es fs : List (Argument Value)} {v w : Value} (name : Option Symbol)
      (value : SameValue st v w) (rest : SameBundle st es fs) :
      SameBundle st (⟨name, some v⟩ :: es) (⟨name, some w⟩ :: fs)

inductive SameValues (st : Store) : List Value → List Value → Prop
  | nil : SameValues st [] []
  | cons {vs ws : List Value} {v w : Value} (value : SameValue st v w)
      (rest : SameValues st vs ws) : SameValues st (v :: vs) (w :: ws)

inductive SameEntries (st : Store) : List (Entry Value) → List (Entry Value) → Prop
  | nil : SameEntries st [] []
  | cons {es fs : List (Entry Value)} {v w : Value} (label : Option Symbol)
      (value : SameValue st v w) (rest : SameEntries st es fs) :
      SameEntries st (⟨label, v⟩ :: es) (⟨label, w⟩ :: fs)

end

variable {st : Store}

mutual

theorem SameValue.of_test : ∀ {v w : Value}, st.sameValue v w = true → SameValue st v w
  | .null, w, h => by
    cases w <;> simp only [sameValue, Bool.false_eq_true] at h
    exact .null
  | .vector (k := k) v, w, h => by
    cases w with
    | @vector j w =>
      by_cases hk : j = k
      · subst hk
        rw [sameValue, Value.vector?_self] at h
        exact .vector h
      · simp only [sameValue, Value.vector?, hk, dif_neg, not_false_eq_true,
          Bool.false_eq_true] at h
    | _ => simp only [sameValue, Value.vector?, Bool.false_eq_true] at h
  | .symbol name, w, h => by
    cases w <;> simp only [sameValue, Bool.false_eq_true, decide_eq_true_eq] at h
    exact h ▸ .symbol name
  | .language _, w, h => by
    cases w <;> simp only [sameValue, Bool.false_eq_true] at h
    exact .language (SameNode.of_test h)
  | .promise id m scope, w, h => by
    cases w <;> simp only [sameValue, Bool.false_eq_true, decide_eq_true_eq] at h
    exact h ▸ .promise id m _ scope _
  | .bundle _, w, h => by
    cases w <;> simp only [sameValue, Bool.false_eq_true] at h
    exact .bundle (SameBundle.of_test h)
  | .list (.plain _), w, h => by
    cases w with
    | list items =>
      cases items <;> simp only [sameValue, Bool.false_eq_true] at h
      exact .plain (SameValues.of_test h)
    | _ => simp only [sameValue, Bool.false_eq_true] at h
  | .list (.labelled _), w, h => by
    cases w with
    | list items =>
      cases items <;> simp only [sameValue, Bool.false_eq_true] at h
      exact .labelled (SameEntries.of_test h)
    | _ => simp only [sameValue, Bool.false_eq_true] at h
  | .environment id, w, h => by
    cases w <;> simp only [sameValue, Bool.false_eq_true, decide_eq_true_eq] at h
    exact h ▸ .environment id
  | .closure id fs b scope, w, h => by
    cases w <;> simp only [sameValue, Bool.false_eq_true, decide_eq_true_eq] at h
    exact h ▸ .closure id fs _ b _ scope _

theorem SameNode.of_test : ∀ {m n : Expression}, st.sameNode m n = true → SameNode st m n
  | .constant _, n, h => by
    cases n <;> simp only [sameNode, Bool.false_eq_true] at h
    exact .constant (SameValue.of_test h)
  | .symbol name, n, h => by
    cases n <;> simp only [sameNode, Bool.false_eq_true, decide_eq_true_eq] at h
    exact h ▸ .symbol name
  | .call f _, n, h => by
    cases n <;> simp only [sameNode, Bool.false_eq_true, Bool.and_eq_true, decide_eq_true_eq] at h
    obtain ⟨rfl, has⟩ := h
    exact .call f (SameArguments.of_test has)
  | .block _, n, h => by
    cases n <;> simp only [sameNode, Bool.false_eq_true] at h
    exact .block (SameNodes.of_test h)
  | .ifElse _ _ none, n, h => by
    cases n with
    | ifElse d u e =>
      cases e <;> simp only [sameNode, Bool.false_eq_true, Bool.and_eq_true] at h
      exact .ifThen (SameNode.of_test h.1) (SameNode.of_test h.2)
    | _ => simp only [sameNode, Bool.false_eq_true] at h
  | .ifElse _ _ (some _), n, h => by
    cases n with
    | ifElse d u e =>
      cases e <;> simp only [sameNode, Bool.false_eq_true, Bool.and_eq_true] at h
      exact .ifElse (SameNode.of_test h.1.1) (SameNode.of_test h.1.2) (SameNode.of_test h.2)
    | _ => simp only [sameNode, Bool.false_eq_true] at h
  | .whileLoop _ _, n, h => by
    cases n <;> simp only [sameNode, Bool.false_eq_true, Bool.and_eq_true] at h
    exact .whileLoop (SameNode.of_test h.1) (SameNode.of_test h.2)
  | .repeatLoop _, n, h => by
    cases n <;> simp only [sameNode, Bool.false_eq_true] at h
    exact .repeatLoop (SameNode.of_test h)
  | .forLoop x _ _, n, h => by
    cases n <;> simp only [sameNode, Bool.false_eq_true, Bool.and_eq_true, decide_eq_true_eq] at h
    obtain ⟨⟨rfl, hs⟩, hb⟩ := h
    exact .forLoop x (SameNode.of_test hs) (SameNode.of_test hb)
  | .function _ _, n, h => by
    cases n <;> simp only [sameNode, Bool.false_eq_true, Bool.and_eq_true] at h
    exact .function (SameFormals.of_test h.1) (SameNode.of_test h.2)
  | .assign x _ isSuper, n, h => by
    cases n <;> simp only [sameNode, Bool.false_eq_true, Bool.and_eq_true, decide_eq_true_eq] at h
    obtain ⟨⟨rfl, hv⟩, rfl⟩ := h
    exact .assign x (SameNode.of_test hv) isSuper
  | .binary op _ _, n, h => by
    cases n <;> simp only [sameNode, Bool.false_eq_true, Bool.and_eq_true, decide_eq_true_eq] at h
    obtain ⟨⟨rfl, hl⟩, hr⟩ := h
    exact .binary op (SameNode.of_test hl) (SameNode.of_test hr)
  | .unary op _, n, h => by
    cases n <;> simp only [sameNode, Bool.false_eq_true, Bool.and_eq_true, decide_eq_true_eq] at h
    obtain ⟨rfl, hx⟩ := h
    exact .unary op (SameNode.of_test hx)
  | .index _ _ exact, n, h => by
    cases n <;> simp only [sameNode, Bool.false_eq_true, Bool.and_eq_true, decide_eq_true_eq] at h
    obtain ⟨⟨hb, has⟩, rfl⟩ := h
    exact .index (SameNode.of_test hb) (SameArguments.of_test has) _
  | .field _ x, n, h => by
    cases n <;> simp only [sameNode, Bool.false_eq_true, Bool.and_eq_true, decide_eq_true_eq] at h
    obtain ⟨hb, rfl⟩ := h
    exact .field (SameNode.of_test hb) x
  | .nextLoop, n, h => by
    cases n <;> simp only [sameNode, Bool.false_eq_true] at h
    exact .nextLoop
  | .breakLoop, n, h => by
    cases n <;> simp only [sameNode, Bool.false_eq_true] at h
    exact .breakLoop

theorem SameArguments.of_test : ∀ {as bs : List (Argument Expression)},
    st.sameArguments as bs = true → SameArguments st as bs
  | [], bs, h => by
    cases bs <;> simp only [sameArguments, Bool.false_eq_true] at h
    exact .nil
  | ⟨name, none⟩ :: _, bs, h => by
    rcases bs with _ | ⟨⟨_, _ | _⟩, _⟩ <;>
      simp only [sameArguments, Bool.false_eq_true, Bool.and_eq_true, decide_eq_true_eq] at h
    obtain ⟨rfl, has⟩ := h
    exact .hole name (SameArguments.of_test has)
  | ⟨name, some _⟩ :: _, bs, h => by
    rcases bs with _ | ⟨⟨_, _ | _⟩, _⟩ <;>
      simp only [sameArguments, Bool.false_eq_true, Bool.and_eq_true, decide_eq_true_eq] at h
    obtain ⟨⟨rfl, hn⟩, has⟩ := h
    exact .cons name (SameNode.of_test hn) (SameArguments.of_test has)

theorem SameNodes.of_test : ∀ {ms ns : List Expression},
    st.sameNodes ms ns = true → SameNodes st ms ns
  | [], ns, h => by
    cases ns <;> simp only [sameNodes, Bool.false_eq_true] at h
    exact .nil
  | _ :: _, ns, h => by
    cases ns <;> simp only [sameNodes, Bool.false_eq_true, Bool.and_eq_true] at h
    exact .cons (SameNode.of_test h.1) (SameNodes.of_test h.2)

theorem SameFormals.of_test : ∀ {fs gs : List (Formal Expression)},
    st.sameFormals fs gs = true → SameFormals st fs gs
  | [], gs, h => by
    cases gs <;> simp only [sameFormals, Bool.false_eq_true] at h
    exact .nil
  | ⟨name, none⟩ :: _, gs, h => by
    rcases gs with _ | ⟨⟨_, _ | _⟩, _⟩ <;>
      simp only [sameFormals, Bool.false_eq_true, Bool.and_eq_true, decide_eq_true_eq] at h
    obtain ⟨rfl, hfs⟩ := h
    exact .required name (SameFormals.of_test hfs)
  | ⟨name, some _⟩ :: _, gs, h => by
    rcases gs with _ | ⟨⟨_, _ | _⟩, _⟩ <;>
      simp only [sameFormals, Bool.false_eq_true, Bool.and_eq_true, decide_eq_true_eq] at h
    obtain ⟨⟨rfl, hn⟩, hfs⟩ := h
    exact .cons name (SameNode.of_test hn) (SameFormals.of_test hfs)

theorem SameBundle.of_test : ∀ {es fs : List (Argument Value)},
    st.sameBundle es fs = true → SameBundle st es fs
  | [], fs, h => by
    cases fs <;> simp only [sameBundle, Bool.false_eq_true] at h
    exact .nil
  | ⟨name, none⟩ :: _, fs, h => by
    rcases fs with _ | ⟨⟨_, _ | _⟩, _⟩ <;>
      simp only [sameBundle, Bool.false_eq_true, Bool.and_eq_true, decide_eq_true_eq] at h
    obtain ⟨rfl, hes⟩ := h
    exact .absent name (SameBundle.of_test hes)
  | ⟨name, some _⟩ :: _, fs, h => by
    rcases fs with _ | ⟨⟨_, _ | _⟩, _⟩ <;>
      simp only [sameBundle, Bool.false_eq_true, Bool.and_eq_true, decide_eq_true_eq] at h
    obtain ⟨⟨rfl, hv⟩, hes⟩ := h
    exact .cons name (SameValue.of_test hv) (SameBundle.of_test hes)

theorem SameValues.of_test : ∀ {vs ws : List Value},
    st.sameValues vs ws = true → SameValues st vs ws
  | [], ws, h => by
    cases ws <;> simp only [sameValues, Bool.false_eq_true] at h
    exact .nil
  | _ :: _, ws, h => by
    cases ws <;> simp only [sameValues, Bool.false_eq_true, Bool.and_eq_true] at h
    exact .cons (SameValue.of_test h.1) (SameValues.of_test h.2)

theorem SameEntries.of_test : ∀ {es fs : List (Entry Value)},
    st.sameEntries es fs = true → SameEntries st es fs
  | [], fs, h => by
    cases fs <;> simp only [sameEntries, Bool.false_eq_true] at h
    exact .nil
  | ⟨label, _⟩ :: _, fs, h => by
    rcases fs with _ | ⟨⟨_, _⟩, _⟩ <;>
      simp only [sameEntries, Bool.false_eq_true, Bool.and_eq_true, decide_eq_true_eq] at h
    obtain ⟨⟨rfl, hv⟩, hes⟩ := h
    exact .cons label (SameValue.of_test hv) (SameEntries.of_test hes)

end

mutual

theorem SameValue.test : ∀ {v w : Value}, SameValue st v w → st.sameValue v w = true
  | _, _, .null => by rw [sameValue]
  | _, _, .vector h => by rw [sameValue, Value.vector?_self]; exact h
  | _, _, .symbol _ => by simp only [sameValue, decide_true]
  | _, _, .language h => by rw [sameValue, h.test]
  | _, _, .promise _ _ _ _ _ => by simp only [sameValue, decide_true]
  | _, _, .bundle h => by rw [sameValue, h.test]
  | _, _, .plain h => by rw [sameValue, h.test]
  | _, _, .labelled h => by rw [sameValue, h.test]
  | _, _, .environment _ => by simp only [sameValue, decide_true]
  | _, _, .closure _ _ _ _ _ _ _ => by simp only [sameValue, decide_true]

theorem SameNode.test : ∀ {m n : Expression}, SameNode st m n → st.sameNode m n = true
  | _, _, .constant h => by rw [sameNode, h.test]
  | _, _, .symbol _ => by simp only [sameNode, decide_true]
  | _, _, .call _ h => by simp only [sameNode, h.test, decide_true, Bool.and_self]
  | _, _, .block h => by rw [sameNode, h.test]
  | _, _, .ifThen hc ht => by simp only [sameNode, hc.test, ht.test, Bool.and_self]
  | _, _, .ifElse hc ht he => by simp only [sameNode, hc.test, ht.test, he.test, Bool.and_self]
  | _, _, .whileLoop hc hb => by simp only [sameNode, hc.test, hb.test, Bool.and_self]
  | _, _, .repeatLoop hb => by rw [sameNode, hb.test]
  | _, _, .forLoop _ hs hb => by simp only [sameNode, hs.test, hb.test, decide_true, Bool.and_self]
  | _, _, .function hf hb => by simp only [sameNode, hf.test, hb.test, Bool.and_self]
  | _, _, .assign _ hv _ => by simp only [sameNode, hv.test, decide_true, Bool.and_self]
  | _, _, .binary _ hl hr => by simp only [sameNode, hl.test, hr.test, decide_true, Bool.and_self]
  | _, _, .unary _ hx => by simp only [sameNode, hx.test, decide_true, Bool.and_self]
  | _, _, .index hb ha _ => by simp only [sameNode, hb.test, ha.test, decide_true, Bool.and_self]
  | _, _, .field hb _ => by simp only [sameNode, hb.test, decide_true, Bool.and_self]
  | _, _, .nextLoop => by rw [sameNode]
  | _, _, .breakLoop => by rw [sameNode]

theorem SameArguments.test : ∀ {as bs : List (Argument Expression)},
    SameArguments st as bs → st.sameArguments as bs = true
  | _, _, .nil => by rw [sameArguments]
  | _, _, .hole _ h => by simp only [sameArguments, h.test, decide_true, Bool.and_self]
  | _, _, .cons _ h hs => by simp only [sameArguments, h.test, hs.test, decide_true, Bool.and_self]

theorem SameNodes.test : ∀ {ms ns : List Expression},
    SameNodes st ms ns → st.sameNodes ms ns = true
  | _, _, .nil => by rw [sameNodes]
  | _, _, .cons h hs => by simp only [sameNodes, h.test, hs.test, Bool.and_self]

theorem SameFormals.test : ∀ {fs gs : List (Formal Expression)},
    SameFormals st fs gs → st.sameFormals fs gs = true
  | _, _, .nil => by rw [sameFormals]
  | _, _, .required _ h => by simp only [sameFormals, h.test, decide_true, Bool.and_self]
  | _, _, .cons _ h hs => by simp only [sameFormals, h.test, hs.test, decide_true, Bool.and_self]

theorem SameBundle.test : ∀ {es fs : List (Argument Value)},
    SameBundle st es fs → st.sameBundle es fs = true
  | _, _, .nil => by rw [sameBundle]
  | _, _, .absent _ h => by simp only [sameBundle, h.test, decide_true, Bool.and_self]
  | _, _, .cons _ h hs => by simp only [sameBundle, h.test, hs.test, decide_true, Bool.and_self]

theorem SameValues.test : ∀ {vs ws : List Value},
    SameValues st vs ws → st.sameValues vs ws = true
  | _, _, .nil => by rw [sameValues]
  | _, _, .cons h hs => by simp only [sameValues, h.test, hs.test, Bool.and_self]

theorem SameEntries.test : ∀ {es fs : List (Entry Value)},
    SameEntries st es fs → st.sameEntries es fs = true
  | _, _, .nil => by rw [sameEntries]
  | _, _, .cons _ h hs => by simp only [sameEntries, h.test, hs.test, decide_true, Bool.and_self]

end

theorem sameValue_iff {v w : Value} : st.sameValue v w = true ↔ SameValue st v w :=
  ⟨.of_test, fun h => h.test⟩

theorem sameNode_iff {m n : Expression} : st.sameNode m n = true ↔ SameNode st m n :=
  ⟨.of_test, fun h => h.test⟩

theorem sameArguments_iff {as bs : List (Argument Expression)} :
    st.sameArguments as bs = true ↔ SameArguments st as bs :=
  ⟨.of_test, fun h => h.test⟩

theorem sameFormals_iff {fs gs : List (Formal Expression)} :
    st.sameFormals fs gs = true ↔ SameFormals st fs gs :=
  ⟨.of_test, fun h => h.test⟩

mutual

theorem SameValue.symm : ∀ {v w : Value}, SameValue st v w → SameValue st w v
  | _, _, .null => .null
  | _, _, .vector h => .vector (Vec.same_symm h)
  | _, _, .symbol name => .symbol name
  | _, _, .language h => .language h.symm
  | _, _, .promise id m n scope scope' => .promise id n m scope' scope
  | _, _, .bundle h => .bundle h.symm
  | _, _, .plain h => .plain h.symm
  | _, _, .labelled h => .labelled h.symm
  | _, _, .environment id => .environment id
  | _, _, .closure id fs gs b c scope scope' => .closure id gs fs c b scope' scope

theorem SameNode.symm : ∀ {m n : Expression}, SameNode st m n → SameNode st n m
  | _, _, .constant h => .constant h.symm
  | _, _, .symbol name => .symbol name
  | _, _, .call f h => .call f h.symm
  | _, _, .block h => .block h.symm
  | _, _, .ifThen hc ht => .ifThen hc.symm ht.symm
  | _, _, .ifElse hc ht he => .ifElse hc.symm ht.symm he.symm
  | _, _, .whileLoop hc hb => .whileLoop hc.symm hb.symm
  | _, _, .repeatLoop hb => .repeatLoop hb.symm
  | _, _, .forLoop x hs hb => .forLoop x hs.symm hb.symm
  | _, _, .function hf hb => .function hf.symm hb.symm
  | _, _, .assign x hv isSuper => .assign x hv.symm isSuper
  | _, _, .binary op hl hr => .binary op hl.symm hr.symm
  | _, _, .unary op hx => .unary op hx.symm
  | _, _, .index hb ha exact => .index hb.symm ha.symm exact
  | _, _, .field hb x => .field hb.symm x
  | _, _, .nextLoop => .nextLoop
  | _, _, .breakLoop => .breakLoop

theorem SameArguments.symm : ∀ {as bs : List (Argument Expression)},
    SameArguments st as bs → SameArguments st bs as
  | _, _, .nil => .nil
  | _, _, .hole name h => .hole name h.symm
  | _, _, .cons name h hs => .cons name h.symm hs.symm

theorem SameNodes.symm : ∀ {ms ns : List Expression}, SameNodes st ms ns → SameNodes st ns ms
  | _, _, .nil => .nil
  | _, _, .cons h hs => .cons h.symm hs.symm

theorem SameFormals.symm : ∀ {fs gs : List (Formal Expression)},
    SameFormals st fs gs → SameFormals st gs fs
  | _, _, .nil => .nil
  | _, _, .required name h => .required name h.symm
  | _, _, .cons name h hs => .cons name h.symm hs.symm

theorem SameBundle.symm : ∀ {es fs : List (Argument Value)},
    SameBundle st es fs → SameBundle st fs es
  | _, _, .nil => .nil
  | _, _, .absent name h => .absent name h.symm
  | _, _, .cons name h hs => .cons name h.symm hs.symm

theorem SameValues.symm : ∀ {vs ws : List Value}, SameValues st vs ws → SameValues st ws vs
  | _, _, .nil => .nil
  | _, _, .cons h hs => .cons h.symm hs.symm

theorem SameEntries.symm : ∀ {es fs : List (Entry Value)},
    SameEntries st es fs → SameEntries st fs es
  | _, _, .nil => .nil
  | _, _, .cons label h hs => .cons label h.symm hs.symm

end

mutual

theorem SameValue.trans : ∀ {u v w : Value}, SameValue st u v → SameValue st v w → SameValue st u w
  | _, _, _, .null, .null => .null
  | _, _, _, .vector h, .vector h' => .vector (Vec.same_trans h h')
  | _, _, _, .symbol name, .symbol _ => .symbol name
  | _, _, _, .language h, .language h' => .language (h.trans h')
  | _, _, _, .promise id m _ scope _, .promise _ _ n _ scope' => .promise id m n scope scope'
  | _, _, _, .bundle h, .bundle h' => .bundle (h.trans h')
  | _, _, _, .plain h, .plain h' => .plain (h.trans h')
  | _, _, _, .labelled h, .labelled h' => .labelled (h.trans h')
  | _, _, _, .environment id, .environment _ => .environment id
  | _, _, _, .closure id fs _ b _ scope _, .closure _ _ gs _ c _ scope' =>
    .closure id fs gs b c scope scope'

theorem SameNode.trans : ∀ {l m n : Expression}, SameNode st l m → SameNode st m n → SameNode st l n
  | _, _, _, .constant h, .constant h' => .constant (h.trans h')
  | _, _, _, .symbol name, .symbol _ => .symbol name
  | _, _, _, .call f h, .call _ h' => .call f (h.trans h')
  | _, _, _, .block h, .block h' => .block (h.trans h')
  | _, _, _, .ifThen hc ht, .ifThen hc' ht' => .ifThen (hc.trans hc') (ht.trans ht')
  | _, _, _, .ifElse hc ht he, .ifElse hc' ht' he' =>
    .ifElse (hc.trans hc') (ht.trans ht') (he.trans he')
  | _, _, _, .whileLoop hc hb, .whileLoop hc' hb' => .whileLoop (hc.trans hc') (hb.trans hb')
  | _, _, _, .repeatLoop hb, .repeatLoop hb' => .repeatLoop (hb.trans hb')
  | _, _, _, .forLoop x hs hb, .forLoop _ hs' hb' => .forLoop x (hs.trans hs') (hb.trans hb')
  | _, _, _, .function hf hb, .function hf' hb' => .function (hf.trans hf') (hb.trans hb')
  | _, _, _, .assign x hv isSuper, .assign _ hv' _ => .assign x (hv.trans hv') isSuper
  | _, _, _, .binary op hl hr, .binary _ hl' hr' => .binary op (hl.trans hl') (hr.trans hr')
  | _, _, _, .unary op hx, .unary _ hx' => .unary op (hx.trans hx')
  | _, _, _, .index hb ha exact, .index hb' ha' _ => .index (hb.trans hb') (ha.trans ha') exact
  | _, _, _, .field hb x, .field hb' _ => .field (hb.trans hb') x
  | _, _, _, .nextLoop, .nextLoop => .nextLoop
  | _, _, _, .breakLoop, .breakLoop => .breakLoop

theorem SameArguments.trans : ∀ {as bs cs : List (Argument Expression)},
    SameArguments st as bs → SameArguments st bs cs → SameArguments st as cs
  | _, _, _, .nil, .nil => .nil
  | _, _, _, .hole name h, .hole _ h' => .hole name (h.trans h')
  | _, _, _, .cons name h hs, .cons _ h' hs' => .cons name (h.trans h') (hs.trans hs')

theorem SameNodes.trans : ∀ {ls ms ns : List Expression},
    SameNodes st ls ms → SameNodes st ms ns → SameNodes st ls ns
  | _, _, _, .nil, .nil => .nil
  | _, _, _, .cons h hs, .cons h' hs' => .cons (h.trans h') (hs.trans hs')

theorem SameFormals.trans : ∀ {fs gs hs : List (Formal Expression)},
    SameFormals st fs gs → SameFormals st gs hs → SameFormals st fs hs
  | _, _, _, .nil, .nil => .nil
  | _, _, _, .required name h, .required _ h' => .required name (h.trans h')
  | _, _, _, .cons name h hs, .cons _ h' hs' => .cons name (h.trans h') (hs.trans hs')

theorem SameBundle.trans : ∀ {ds es fs : List (Argument Value)},
    SameBundle st ds es → SameBundle st es fs → SameBundle st ds fs
  | _, _, _, .nil, .nil => .nil
  | _, _, _, .absent name h, .absent _ h' => .absent name (h.trans h')
  | _, _, _, .cons name h hs, .cons _ h' hs' => .cons name (h.trans h') (hs.trans hs')

theorem SameValues.trans : ∀ {us vs ws : List Value},
    SameValues st us vs → SameValues st vs ws → SameValues st us ws
  | _, _, _, .nil, .nil => .nil
  | _, _, _, .cons h hs, .cons h' hs' => .cons (h.trans h') (hs.trans hs')

theorem SameEntries.trans : ∀ {ds es fs : List (Entry Value)},
    SameEntries st ds es → SameEntries st es fs → SameEntries st ds fs
  | _, _, _, .nil, .nil => .nil
  | _, _, _, .cons label h hs, .cons _ h' hs' => .cons label (h.trans h') (hs.trans hs')

end

variable (st)

theorem sameValue_equivalence : Equivalence fun v w : Value => st.sameValue v w = true where
  refl := st.sameValue_self
  symm h := sameValue_iff.2 (sameValue_iff.1 h).symm
  trans h h' := sameValue_iff.2 ((sameValue_iff.1 h).trans (sameValue_iff.1 h'))

theorem sameNode_equivalence : Equivalence fun m n : Expression => st.sameNode m n = true where
  refl := st.sameNode_self
  symm h := sameNode_iff.2 (sameNode_iff.1 h).symm
  trans h h' := sameNode_iff.2 ((sameNode_iff.1 h).trans (sameNode_iff.1 h'))

theorem sameArguments_equivalence :
    Equivalence fun as bs : List (Argument Expression) => st.sameArguments as bs = true where
  refl := st.sameArguments_self
  symm h := sameArguments_iff.2 (sameArguments_iff.1 h).symm
  trans h h' := sameArguments_iff.2 ((sameArguments_iff.1 h).trans (sameArguments_iff.1 h'))

theorem sameFormals_equivalence :
    Equivalence fun fs gs : List (Formal Expression) => st.sameFormals fs gs = true where
  refl := st.sameFormals_self
  symm h := sameFormals_iff.2 (sameFormals_iff.1 h).symm
  trans h h' := sameFormals_iff.2 ((sameFormals_iff.1 h).trans (sameFormals_iff.1 h'))

end Store

end Deferred
