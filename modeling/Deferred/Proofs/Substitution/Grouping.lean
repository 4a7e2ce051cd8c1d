import Deferred.Proofs.Substitution.Identity
import Deferred.Proofs.Value.Readings

set_option autoImplicit false

namespace Deferred

namespace Token

/-- What is written in place of a token, if each word gives way to an operation. -/
def splice (f : Word → Operation) : Token → List Token
  | word w => (f w).tokens
  | t => [t]

end Token

namespace Operation

/-- The operation with each of its words replaced by an operation. -/
def splice (f : Word → Operation) : Operation → Operation
  | word w => f w
  | unary op x => unary op (x.splice f)
  | binary op l r => binary op (l.splice f) (r.splice f)

def words : Operation → List Word
  | word w => [w]
  | unary _ x => x.words
  | binary _ l r => l.words ++ r.words

theorem tokens_splice (f : Word → Operation) (p : Operation) :
    (p.splice f).tokens = p.tokens.flatMap (Token.splice f) := by
  induction p with
  | word w => simp [splice, tokens, Token.splice]
  | unary op x ih => simp [splice, tokens, Token.splice, ih]
  | binary op l r ihl ihr => simp [splice, tokens, Token.splice, ihl, ihr]

section

variable {σ : Symbol → Option Value}

/-- Each word of an operation is bound to an operation, or not bound and left alone. -/
def Supplied (σ : Symbol → Option Value) (f : Word → Operation) (p : Operation) : Prop :=
  ∀ w ∈ p.words, ((σ w.symbol).map Value.tree).getD (.symbol w.symbol) = (f w).node

theorem graft_node {f : Word → Operation} {p : Operation} (h : p.Supplied σ f) :
    p.node.graft σ = (p.splice f).node := by
  induction p with
  | word w => exact h w (List.mem_singleton_self w)
  | unary op x ih => rw [node, Node.graft, splice, node, ih h]
  | binary op l r ihl ihr =>
    obtain ⟨hl, hr⟩ := List.forall_mem_append.1 h
    rw [node, Node.graft, splice, node, ihl hl, ihr hr]

theorem visits_node (spliced : Bool) (d : Nat) (p : Operation) :
    p.node.visits spliced d = p.node.visits false d := by
  induction p generalizing d with
  | word w => rfl
  | unary op x ih => rw [node, Node.visits, Node.visits, ih]
  | binary op l r ihl ihr => rw [node, Node.visits, Node.visits, ihl, ihr]

theorem fits_visits_node (spliced : Bool) (d : Nat) (p : Operation) :
    Fits σ (p.node.visits spliced d) := by
  induction p generalizing d with
  | word w => exact (fits_cons_of_headFault? rfl).2 fits_nil
  | unary op x ih => exact (fits_cons_of_headFault? rfl).2 (ih (d + 1))
  | binary op l r ihl ihr =>
    exact (fits_cons_of_headFault? rfl).2 (fits_append.2 ⟨ihl (d + 1), ihr (d + 1)⟩)

end

theorem apply_node {s : Substitution} {o : Objects} {f : Word → Operation} {p : Operation}
    (h : p.Supplied (s.source.find? o) f) :
    (s.apply o p.node).1 =
      if p.node.height ≤ s.limit then .ok (p.splice f).node else .error (.tooDeep s.limit) := by
  rw [Substitution.apply_of_fits o p.node (p.visits_node _ 1) (p.fits_visits_node _ 1),
    graft_node h]

/-- Two operations have the same text if and only if they have the same words and operators in the
same order, however these are grouped. Only an operation without binary operators, and one with a
single binary operator that stands behind a word, has a text of its own. So the text of the result
of a substitution tells the words and operators of the operands that were put in and the places
where these stand, but nothing of what belongs together. -/
theorem nodeText_shows_order (h : Heap) (p : Operation) :
    (∀ q : Operation, h.nodeText p.node = h.nodeText q.node ↔ p.tokens = q.tokens) ∧
      ((∀ q : Operation, h.nodeText p.node = h.nodeText q.node → p.node = q.node) ↔
        p.readsOneWay = true) ∧
      ∀ (s : Substitution) (o : Objects) (f : Word → Operation),
        p.Supplied (s.source.find? o) f → p.node.height ≤ s.limit →
          (s.apply o p.node).1 = .ok (p.splice f).node ∧
          ∀ q : Operation, h.nodeText (p.splice f).node = h.nodeText q.node ↔
            p.tokens.flatMap (Token.splice f) = q.tokens := by
  refine ⟨p.nodeText_eq_iff h, p.eq_of_nodeText_eq_iff h, fun s o f hf hlimit => ⟨?_, fun q => ?_⟩⟩
  · rw [apply_node hf, if_pos hlimit]
  · rw [nodeText_eq_iff, tokens_splice]

/-- The promise of a sum is put in as a factor, and no word but `x` is bound. -/
theorem nodeText_shows_order_factor :
    let a : Word := .ofLetters "a" (by decide) (by decide)
    let b : Word := .ofLetters "b" (by decide) (by decide)
    let c : Word := .ofLetters "c" (by decide) (by decide)
    let x : Word := .ofLetters "x" (by decide) (by decide)
    let sum : Operation := .binary .add (.word a) (.word b)
    let p : Operation := .binary .mul (.word x) (.unary .neg (.word c))
    let f : Word → Operation := fun w => if w = x then sum else .word w
    let s : Substitution :=
      ⟨.list (.labelled [⟨some x.symbol, .promise ⟨0⟩ sum.node none⟩]), 3⟩
    p.Supplied (s.source.find? Objects.empty) f ∧ p.node.height ≤ s.limit ∧
      p.readsOneWay = true ∧ (p.splice f).readsOneWay = false ∧
      (s.apply Objects.empty p.node).1 = .ok (p.splice f).node ∧
      ∀ q : Operation, Heap.empty.nodeText (p.splice f).node = Heap.empty.nodeText q.node ↔
        [.word a, .binary .add, .word b, .binary .mul, .unary .neg, .word c] = q.tokens := by
  intro a b c x sum p f s
  have hf : p.Supplied (s.source.find? Objects.empty) f := by
    intro w hw
    have hwords : p.words = [x, c] := rfl
    simp only [hwords, List.mem_cons, List.not_mem_nil, or_false] at hw
    rcases hw with rfl | rfl <;> rfl
  have hlimit : p.node.height ≤ s.limit := by decide
  obtain ⟨happly, htext⟩ := (nodeText_shows_order Heap.empty p).2.2 s Objects.empty f hf hlimit
  exact ⟨hf, hlimit, rfl, rfl, happly, htext⟩

/-- The grouping that a substitution makes does not show: the promise of `a + b` in `x * c` and in
`x * 2` gives what is written like `a + b * c` and `a + b * 2`. -/
theorem apply_loses_grouping :
    let a : Word := .ofLetters "a" (by decide) (by decide)
    let b : Word := .ofLetters "b" (by decide) (by decide)
    let c : Word := .ofLetters "c" (by decide) (by decide)
    let x : Word := .ofLetters "x" (by decide) (by decide)
    let sum : Operation := .binary .add (.word a) (.word b)
    let s : Substitution :=
      ⟨.list (.labelled [⟨some x.symbol, .promise ⟨0⟩ sum.node none⟩]), 2⟩
    let grouped : Operation := .binary .mul sum (.word c)
    let regrouped : Operation := .binary .add (.word a) (.binary .mul (.word b) (.word c))
    let cell := Store.empty.alloc (k := .double) (.scalar ⟨0x4000000000000000⟩) none
    let h : Heap := ⟨Objects.empty, cell.2⟩
    let two : Expression := .constant (.vector (.dense cell.1))
    (s.apply Objects.empty (Operation.binary .mul (.word x) (.word c)).node).1 =
        .ok grouped.node ∧
      grouped.node ≠ regrouped.node ∧
      h.nodeText grouped.node = h.nodeText regrouped.node ∧
      (s.apply Objects.empty (.binary .mul (.symbol x.symbol) two)).1 =
        .ok (.binary .mul sum.node two) ∧
      Node.binary .mul sum.node two ≠
        .binary .add (.symbol a.symbol) (.binary .mul (.symbol b.symbol) two) ∧
      h.nodeText (.binary .mul sum.node two) =
        h.nodeText (.binary .add (.symbol a.symbol) (.binary .mul (.symbol b.symbol) two)) := by
  intro a b c x sum s grouped regrouped cell h two
  refine ⟨rfl, fun hn => ?_, ?_, rfl, fun hn => ?_, ?_⟩
  · exact absurd (Node.binary.inj hn).1 (by decide)
  · exact (nodeText_eq_iff h grouped regrouped).2 rfl
  · exact absurd (Node.binary.inj hn).1 (by decide)
  · simp [sum, node, Heap.nodeText, BinaryOperator.isTight, String.append_assoc]

end Operation

end Deferred
