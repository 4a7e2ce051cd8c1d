import Deferred.Value.Text

/-!
# What the text of an operation tells

Operations are written without parentheses. The text of one shows its words and operators in order,
which `Operation.tokens` lists, and nothing more: the operations with the same tokens are written
alike, and `Operation.readsOneWay` says when there is only one.
-/
set_option autoImplicit false

namespace Deferred

/-- The characters that operators are written with, among them the blank that surrounds most. -/
def operatorMarks : List Char :=
  [' ', '+', '-', '*', '/', '^', '%', ':', '=', '!', '<', '>', '&', '|']

/-- A symbol that is written apart from any operator. -/
@[ext]
structure Word where
  symbol : Symbol
  nonempty : symbol.name.toList ≠ []
  unmarked : ∀ c ∈ symbol.name.toList, c ∉ operatorMarks
  deriving DecidableEq

namespace Word

def chars (w : Word) : List Char := w.symbol.name.toList

theorem not_isAlpha_of_mem_operatorMarks {c : Char} (hc : c ∈ operatorMarks) :
    c.isAlpha = false := by
  have hall : operatorMarks.all (fun c => !c.isAlpha) = true := by decide
  simpa using List.all_eq_true.mp hall c hc

/-- The symbol that a number of letters spell. -/
def ofLetters (name : String) (hne : name.toList ≠ []) (h : name.toList.all Char.isAlpha = true) :
    Word where
  symbol := ⟨name⟩
  nonempty := hne
  unmarked c hc hm := by
    have hletter : c.isAlpha = true := List.all_eq_true.mp h c hc
    rw [not_isAlpha_of_mem_operatorMarks hm] at hletter
    exact Bool.false_ne_true hletter

theorem eq_of_chars_eq {w v : Word} (h : w.chars = v.chars) : w = v := by
  obtain ⟨⟨x⟩, _, _⟩ := w
  obtain ⟨⟨y⟩, _, _⟩ := v
  obtain rfl : x = y := String.toList_inj.1 h
  rfl

end Word

/-- An expression of words and operators. -/
inductive Operation where
  | word (w : Word)
  | unary (op : UnaryOperator) (operand : Operation)
  | binary (op : BinaryOperator) (lhs rhs : Operation)

inductive Token where
  | word (w : Word)
  | unary (op : UnaryOperator)
  | binary (op : BinaryOperator)
  deriving DecidableEq

namespace Token

/-- The characters of a token together with the blanks around it. -/
def chars : Token → List Char
  | word w => w.chars
  | unary op => op.token.toList
  | binary op => if op.isTight then op.token.toList else ' ' :: (op.token.toList ++ [' '])

def isBinary : Token → Bool
  | binary _ => true
  | _ => false

end Token

namespace Operation

def node : Operation → Expression
  | word w => .symbol w.symbol
  | unary op x => .unary op x.node
  | binary op l r => .binary op l.node r.node

/-- The words and operators in the order in which they are written. -/
def tokens : Operation → List Token
  | word w => [.word w]
  | unary op x => .unary op :: x.tokens
  | binary op l r => l.tokens ++ .binary op :: r.tokens

theorem node_injective {p q : Operation} (h : p.node = q.node) : p = q := by
  induction p generalizing q with
  | word w =>
    cases q <;> simp only [node, Node.symbol.injEq, reduceCtorEq] at h
    rw [Word.ext h]
  | unary op x ih =>
    cases q <;> simp only [node, Node.unary.injEq, reduceCtorEq] at h
    rw [h.1, ih h.2]
  | binary op l r ihl ihr =>
    cases q <;> simp only [node, Node.binary.injEq, reduceCtorEq] at h
    rw [h.1, ihl h.2.1, ihr h.2.2]

theorem toList_nodeText (h : Heap) (p : Operation) :
    (h.nodeText p.node).toList = p.tokens.flatMap Token.chars := by
  induction p with
  | word w => simp [node, Heap.nodeText, tokens, Token.chars, Word.chars]
  | unary op x ih => simp [node, Heap.nodeText, tokens, Token.chars, ih]
  | binary op l r ihl ihr =>
    cases hop : op.isTight <;>
      simp [node, Heap.nodeText, tokens, Token.chars, hop, ihl, ihr]

end Operation

/-- What is due next in a sequence of tokens. -/
inductive Due where
  | operand
  | operator

/-- A sequence of tokens brings what is due and stops only after an operand. -/
inductive Due.Met : Due → List Token → Prop where
  | unary {ts : List Token} (op : UnaryOperator) (h : operand.Met ts) :
    operand.Met (.unary op :: ts)
  | word {ts : List Token} (w : Word) (h : operator.Met ts) : operand.Met (.word w :: ts)
  | binary {ts : List Token} (op : BinaryOperator) (h : operand.Met ts) :
    operator.Met (.binary op :: ts)
  | stop : operator.Met []

theorem Operation.met_tokens_append (p : Operation) {ts : List Token} (h : Due.operator.Met ts) :
    Due.operand.Met (p.tokens ++ ts) := by
  induction p generalizing ts with
  | word w => exact .word w h
  | unary op x ih => exact .unary op (ih h)
  | binary op l r ihl ihr =>
    rw [tokens, List.append_assoc, List.cons_append]
    exact ihl (.binary op (ihr h))

theorem Operation.met_tokens (p : Operation) : Due.operand.Met p.tokens := by
  have h := p.met_tokens_append .stop
  rwa [List.append_nil] at h

theorem BinaryOperator.mem_all (op : BinaryOperator) : op ∈ all := by
  cases op <;> decide

namespace Token

variable {cs ds : List Char}

theorem head_unary (op : UnaryOperator) : ∃ c ∈ operatorMarks, chars (unary op) = [c] := by
  cases op
  · exact ⟨'-', by decide, rfl⟩
  · exact ⟨'!', by decide, rfl⟩

theorem head_binary (op : BinaryOperator) :
    ∃ c ∈ operatorMarks, ∃ cs, chars (binary op) = c :: cs := by
  cases op <;> exact ⟨_, by decide, _, rfl⟩

theorem head_word (w : Word) : ∃ c cs, c ∉ operatorMarks ∧ chars (word w) = c :: cs := by
  obtain ⟨c, cs, h⟩ := List.exists_cons_of_ne_nil w.nonempty
  refine ⟨c, cs, w.unmarked c ?_, h⟩
  rw [h]
  exact List.mem_cons_self

theorem chars_binary_append_ne_nil (op : BinaryOperator) : chars (binary op) ++ cs ≠ [] := by
  obtain ⟨c, _, es, hes⟩ := head_binary op
  simp [hes]

/-- No binary operator is written like the beginning of another. -/
theorem eq_of_isPrefix_chars_binary : ∀ op ∈ BinaryOperator.all, ∀ op' ∈ BinaryOperator.all,
    chars (binary op) <+: chars (binary op') → op = op' := by
  decide +kernel

theorem eq_of_chars_binary_append {op op' : BinaryOperator}
    (h : chars (binary op) ++ cs = chars (binary op') ++ ds) : op = op' := by
  have hop : chars (binary op) <+: chars (binary op') ++ ds := ⟨cs, h⟩
  rcases List.prefix_or_prefix_of_prefix hop (List.prefix_append _ ds) with hle | hle
  · exact eq_of_isPrefix_chars_binary op op.mem_all op' op'.mem_all hle
  · exact (eq_of_isPrefix_chars_binary op' op'.mem_all op op.mem_all hle).symm

theorem eq_of_chars_unary_append {op op' : UnaryOperator}
    (h : chars (unary op) ++ cs = chars (unary op') ++ ds) : op = op' := by
  cases op <;> cases op' <;> simp_all [chars, UnaryOperator.token]

theorem chars_unary_append_ne (op : UnaryOperator) (w : Word) :
    chars (unary op) ++ cs ≠ chars (word w) ++ ds := by
  obtain ⟨c, hc, hcs⟩ := head_unary op
  obtain ⟨e, es, he, hes⟩ := head_word w
  rw [hcs, hes]
  intro h
  obtain rfl : c = e := (List.cons.inj h).1
  exact he hc

end Token

theorem Due.Met.takeWhile_operator {ts : List Token} (h : Due.operator.Met ts) :
    (ts.flatMap Token.chars).takeWhile (fun c => c ∉ operatorMarks) = [] := by
  cases h with
  | binary op _ =>
    obtain ⟨c, hc, cs, hcs⟩ := Token.head_binary op
    simp [hcs, hc]
  | stop => rfl

theorem Due.Met.takeWhile_word {ts : List Token} (w : Word) (h : Due.operator.Met ts) :
    (w.chars ++ ts.flatMap Token.chars).takeWhile (fun c => c ∉ operatorMarks) = w.chars := by
  rw [List.takeWhile_append_of_pos fun c hc => by simpa using w.unmarked c hc,
    h.takeWhile_operator, List.append_nil]

/-- Sequences of tokens that bring the same kind of token first are told apart by what they are
written like. -/
theorem Due.Met.eq_of_chars_eq {d : Due} {ts us : List Token} (ht : d.Met ts) (hu : d.Met us)
    (h : ts.flatMap Token.chars = us.flatMap Token.chars) : ts = us := by
  induction ht generalizing us with
  | unary op _ ih =>
    cases hu with
    | unary op' hu =>
      rw [List.flatMap_cons, List.flatMap_cons] at h
      obtain rfl := Token.eq_of_chars_unary_append h
      rw [ih hu (List.append_cancel_left h)]
    | word w _ => exact absurd h (Token.chars_unary_append_ne op w)
  | word w ht ih =>
    cases hu with
    | unary op' _ => exact absurd h.symm (Token.chars_unary_append_ne op' w)
    | word v hu =>
      rw [List.flatMap_cons, List.flatMap_cons] at h
      obtain rfl : w = v := by
        refine Word.eq_of_chars_eq ?_
        rw [← ht.takeWhile_word w, ← hu.takeWhile_word v]
        exact congrArg _ h
      rw [ih hu (List.append_cancel_left h)]
  | binary op ht ih =>
    cases hu with
    | binary op' hu =>
      rw [List.flatMap_cons, List.flatMap_cons] at h
      obtain rfl := Token.eq_of_chars_binary_append h
      rw [ih hu (List.append_cancel_left h)]
    | stop => exact absurd h (Token.chars_binary_append_ne_nil op)
  | stop =>
    cases hu with
    | binary op' _ => exact absurd h.symm (Token.chars_binary_append_ne_nil op')
    | stop => rfl

namespace Operation

theorem nodeText_eq_iff (h : Heap) (p q : Operation) :
    h.nodeText p.node = h.nodeText q.node ↔ p.tokens = q.tokens := by
  rw [← String.toList_inj, toList_nodeText, toList_nodeText]
  exact ⟨p.met_tokens.eq_of_chars_eq q.met_tokens, congrArg _⟩

def binaries : Operation → Nat
  | word _ => 0
  | unary _ x => x.binaries
  | binary _ l r => l.binaries + 1 + r.binaries

/-- No other operation has the same tokens: either there is no binary operator at all, or there is
only one and a word on its left. -/
def readsOneWay : Operation → Bool
  | word _ => true
  | unary _ x => x.binaries == 0
  | binary _ (word _) r => r.binaries == 0
  | binary _ _ _ => false

theorem countP_tokens (p : Operation) : p.tokens.countP Token.isBinary = p.binaries := by
  induction p with
  | word w => rfl
  | unary op x ih => simp [tokens, binaries, Token.isBinary, ih]
  | binary op l r ihl ihr =>
    simp only [tokens, binaries, List.countP_append, List.countP_cons, Token.isBinary, ihl, ihr]
    simp
    omega

theorem binaries_eq_of_tokens_eq {p q : Operation} (h : p.tokens = q.tokens) :
    p.binaries = q.binaries := by
  rw [← countP_tokens, ← countP_tokens, h]

/-- Without binary operators there is nothing to group. -/
theorem eq_of_binaries_eq_zero {p q : Operation} (hp : p.binaries = 0) (h : p.tokens = q.tokens) :
    p = q := by
  have hq : q.binaries = 0 := (binaries_eq_of_tokens_eq h).symm.trans hp
  induction p generalizing q with
  | word w =>
    cases q with
    | word v => simpa [tokens] using h
    | unary op x => simp [tokens] at h
    | binary op l r => simp [binaries] at hq
  | unary op x ih =>
    cases q with
    | word v => simp [tokens] at h
    | unary op' y =>
      simp only [tokens, List.cons.injEq, Token.unary.injEq] at h
      rw [h.1, ih hp h.2 hq]
    | binary op' l r => simp [binaries] at hq
  | binary op l r => simp [binaries] at hp

theorem eq_of_readsOneWay {p q : Operation} (hp : p.readsOneWay = true) (h : p.tokens = q.tokens) :
    p = q := by
  match p, hp with
  | word w, _ => exact eq_of_binaries_eq_zero rfl h
  | unary op x, hp =>
    have hx : x.binaries = 0 := by simpa [readsOneWay] using hp
    exact eq_of_binaries_eq_zero hx h
  | binary op (word w) r, hp =>
    have hr : r.binaries = 0 := by simpa [readsOneWay] using hp
    have hcount := binaries_eq_of_tokens_eq h
    match q with
    | word v => simp [tokens] at h
    | unary op' y => simp [tokens] at h
    | binary op' (word v) s =>
      simp only [tokens, List.singleton_append, List.cons.injEq, Token.word.injEq,
        Token.binary.injEq] at h
      obtain ⟨rfl, rfl, hrs⟩ := h
      rw [eq_of_binaries_eq_zero hr hrs]
    | binary op' (unary op'' y) s => simp [tokens] at h
    | binary op' (binary op'' l m) s =>
      simp only [binaries, hr] at hcount
      omega

/-- A binary operator can be moved under an operator to the left of it, or over one to the right of
it. -/
theorem exists_other_reading (p : Operation) (hp : p.readsOneWay = false) :
    ∃ q, p ≠ q ∧ p.tokens = q.tokens := by
  match p with
  -- Binary operators below a unary one or on the right are grouped in another way where they stand.
  | unary op (unary op' x) =>
    obtain ⟨q, hne, hq⟩ := exists_other_reading (unary op' x) hp
    exact ⟨unary op q, fun h => hne (unary.inj h).2, congrArg (Token.unary op :: ·) hq⟩
  | unary op (binary op' l r) => exact ⟨binary op' (unary op l) r, by simp, rfl⟩
  | binary op (unary op' x) r => exact ⟨unary op' (binary op x r), by simp, rfl⟩
  | binary op (binary op' l m) r =>
    refine ⟨binary op' l (binary op m r), fun h => ?_, by simp [tokens]⟩
    have hl : binary op' l m = l := (binary.inj h).2.1
    cases hl
  | binary op (word w) (unary op' x) =>
    obtain ⟨q, hne, hq⟩ := exists_other_reading (unary op' x) hp
    exact ⟨binary op (word w) q, fun h => hne (binary.inj h).2.2,
      congrArg (Token.word w :: Token.binary op :: ·) hq⟩
  | binary op (word w) (binary op' l m) =>
    refine ⟨binary op' (binary op (word w) l) m, fun h => ?_, by simp [tokens]⟩
    have hw : word w = binary op (word w) l := (binary.inj h).2.1
    cases hw

theorem eq_of_nodeText_eq_iff (h : Heap) (p : Operation) :
    (∀ q : Operation, h.nodeText p.node = h.nodeText q.node → p.node = q.node) ↔
      p.readsOneWay = true := by
  constructor
  · intro hunique
    cases hp : p.readsOneWay with
    | true => rfl
    | false =>
      obtain ⟨q, hne, hq⟩ := p.exists_other_reading hp
      exact absurd (node_injective (hunique q ((nodeText_eq_iff h p q).2 hq))) hne
  · intro hp q hq
    rw [eq_of_readsOneWay hp ((nodeText_eq_iff h p q).1 hq)]

end Operation

end Deferred
