import Mathlib.Data.List.Forall2
import Deferred.Proofs.Substitution.Composition

set_option autoImplicit false

namespace Deferred

variable {V : Kind → Type}

/-- What an entry of a bundle becomes in the place where the bundle is spliced. -/
inductive Argument.Enters : Argument (Value V) → Argument (Expression V) → Prop where
  | value (label : Option Symbol) (v : Value V) : Enters ⟨label, some v⟩ ⟨label, some v.tree⟩
  | absent (name : Symbol) : Enters ⟨some name, none⟩ ⟨none, some (.symbol name)⟩
  | hole : Enters ⟨none, none⟩ ⟨none, none⟩

namespace Rules

/-- The outcome for an expression below `d` others. -/
def outcomeAt (r : Rules V) (d : Nat) (n : Expression V) :
    Except (Fault (Value V)) (Expression V) :=
  (r.substitute n ⟨d, []⟩).1

/-- The outcome for a list of arguments whose values are below `d` expressions. -/
def argumentsAt (r : Rules V) (d : Nat) (as : List (Argument (Expression V))) :
    Except (Fault (Value V)) (List (Argument (Expression V))) :=
  (r.substituteArguments as ⟨d, []⟩).1

/-- The argument is exactly `...`, labelled or not, and that is bound to a bundle. -/
def Splices (r : Rules V) (a : Argument (Expression V)) (entries : List (Argument (Value V))) :
    Prop :=
  a.isDots = true ∧ r.find? Symbol.dots = some (.bundle entries)

/-- The block that one argument becomes, below `d` expressions. -/
inductive Becomes (r : Rules V) (d : Nat) :
    Argument (Expression V) → List (Argument (Expression V)) → Prop where
  | spliced {a : Argument (Expression V)} {entries : List (Argument (Value V))}
      {block : List (Argument (Expression V))} :
      r.Splices a entries → List.Forall₂ Argument.Enters entries block → Becomes r d a block
  | hole (label : Option Symbol) : Becomes r d ⟨label, none⟩ [⟨label, none⟩]
  | single {label : Option Symbol} {n t : Expression V} :
      (¬ ∃ entries, r.Splices ⟨label, some n⟩ entries) → r.outcomeAt d n = .ok t →
        Becomes r d ⟨label, some n⟩ [⟨label, some t⟩]

/-- An argument that is not spliced fails, below `d` expressions. -/
def FailsWith (r : Rules V) (d : Nat) (a : Argument (Expression V)) (e : Fault (Value V)) : Prop :=
  (¬ ∃ entries, r.Splices a entries) ∧ ∃ n, a.value = some n ∧ r.outcomeAt d n = .error e

end Rules

theorem Argument.enters_iff {e : Argument (Value V)} {a : Argument (Expression V)} :
    e.Enters a ↔ Argument.ofEntry e = a := by
  constructor
  · intro h
    cases h <;> rfl
  · rintro rfl
    obtain ⟨_ | name, _ | v⟩ := e
    · exact .hole
    · exact .value none v
    · exact .absent name
    · exact .value (some name) v

theorem forall₂_enters_iff {es : List (Argument (Value V))}
    {as : List (Argument (Expression V))} :
    List.Forall₂ Argument.Enters es as ↔ es.map Argument.ofEntry = as := by
  induction es generalizing as with
  | nil => simp [eq_comm]
  | cons e es ih =>
    cases as with
    | nil => simp
    | cons a as => simp [Argument.enters_iff, ih]

theorem settled_or {α β γ : Type} (e e' : Option (Fault (Value V))) (x : α) (y : β)
    (f : α → β → γ) :
    settled (e.or e') (f x y) = (settled e x).bind fun x => (settled e' y).map (f x) := by
  cases e <;> cases e' <;> rfl

namespace Rules

variable (r : Rules V) (d : Nat)

theorem splices_iff {label : Option Symbol} {n : Expression V}
    {entries : List (Argument (Value V))} :
    r.Splices ⟨label, some n⟩ entries ↔ n.bundle? r.find? = some entries := by
  have hdots : (Argument.mk label (some n)).isDots = n.isDots := rfl
  rw [Splices, hdots, Node.bundle?]
  by_cases hd : n.isDots
  · rw [if_pos hd, bind_bundle?_eq_some_iff]
    exact and_iff_right hd
  · simp [hd]

theorem substitute_fst (ls : List Lookup) (n : Expression V) :
    (r.substitute n ⟨d, ls⟩).1 =
      settled (firstOffence? r (n.visits (bindsBundle r.find?) (d + 1))) (n.graft r.find?) := by
  obtain ⟨_, h⟩ := r.substitute_yields d n ls
  rw [h]

theorem substituteArguments_fst (ls : List Lookup) (as : List (Argument (Expression V))) :
    (r.substituteArguments as ⟨d, ls⟩).1 =
      settled (firstOffence? r (Node.visitsArguments (bindsBundle r.find?) (d + 1) as))
        (Node.graftArguments r.find? as) := by
  obtain ⟨_, h⟩ := r.substituteArguments_yields d as ls
  rw [h]

theorem argumentsAt_nil : r.argumentsAt d [] = .ok [] := rfl

/-- A concatenation of lists becomes the concatenation of what they become. -/
theorem argumentsAt_append (as bs : List (Argument (Expression V))) :
    r.argumentsAt d (as ++ bs) =
      (r.argumentsAt d as).bind fun x => (r.argumentsAt d bs).map (x ++ ·) := by
  simp only [argumentsAt, substituteArguments_fst]
  rw [Node.visitsArguments_append, Node.graftArguments_append, firstOffence?_append]
  exact settled_or _ _ _ _ _

theorem argumentsAt_hole (label : Option Symbol) :
    r.argumentsAt d [⟨label, none⟩] = .ok [⟨label, none⟩] := rfl

theorem argumentsAt_spliced {label : Option Symbol} {n : Expression V}
    {entries : List (Argument (Value V))} (h : n.bundle? r.find? = some entries) :
    r.argumentsAt d [⟨label, some n⟩] = .ok (entries.map Argument.ofEntry) := by
  rw [argumentsAt, substituteArguments_fst, Node.visitsArguments, Node.graftArguments,
    ← Node.isSome_bundle?, h]
  simp [Node.visitsArguments, Node.graftArguments, firstOffence?, settled]

theorem argumentsAt_single {label : Option Symbol} {n : Expression V}
    (h : n.bundle? r.find? = none) :
    r.argumentsAt d [⟨label, some n⟩] = (r.outcomeAt d n).map fun t => [⟨label, some t⟩] := by
  rw [argumentsAt, outcomeAt, substituteArguments_fst, substitute_fst, Node.visitsArguments,
    Node.graftArguments, ← Node.isSome_bundle?, h]
  simp only [Node.visitsArguments, Node.graftArguments, Option.isSome_none, Bool.false_eq_true,
    if_false, List.append_nil]
  cases firstOffence? r (n.visits (bindsBundle r.find?) (d + 1)) <;> rfl

theorem becomes_iff {a : Argument (Expression V)} {block : List (Argument (Expression V))} :
    r.Becomes d a block ↔ r.argumentsAt d [a] = .ok block := by
  obtain ⟨label, _ | n⟩ := a
  · rw [argumentsAt_hole]
    constructor
    · intro h
      cases h with
      | spliced hs _ => exact absurd hs.1 (by simp [Argument.isDots])
      | hole => rfl
    · intro h
      obtain rfl := Except.ok.inj h
      exact .hole label
  · cases hb : n.bundle? r.find? with
    | some entries =>
      rw [argumentsAt_spliced r d hb, Except.ok.injEq, ← forall₂_enters_iff]
      constructor
      · intro h
        cases h with
        | spliced hs he =>
          rw [splices_iff, hb, Option.some.injEq] at hs
          rwa [hs]
        | single hs _ => exact absurd ⟨entries, r.splices_iff.mpr hb⟩ hs
      · exact .spliced (r.splices_iff.mpr hb)
    | none =>
      have hs : ¬ ∃ entries, r.Splices ⟨label, some n⟩ entries := by simp [splices_iff, hb]
      rw [argumentsAt_single r d hb]
      constructor
      · intro h
        cases h with
        | spliced hs' _ => exact absurd ⟨_, hs'⟩ hs
        | single _ ht =>
          rw [ht]
          rfl
      · intro h
        cases ht : r.outcomeAt d n with
        | error e =>
          rw [ht] at h
          contradiction
        | ok t =>
          rw [ht] at h
          obtain rfl := Except.ok.inj h
          exact .single hs ht

theorem failsWith_iff {a : Argument (Expression V)} {e : Fault (Value V)} :
    r.FailsWith d a e ↔ r.argumentsAt d [a] = .error e := by
  obtain ⟨label, _ | n⟩ := a
  · rw [argumentsAt_hole]
    simp [FailsWith]
  · simp only [FailsWith, Option.some.injEq, exists_eq_left', splices_iff]
    cases hb : n.bundle? r.find? with
    | some entries => simp [argumentsAt_spliced r d hb]
    | none =>
      rw [argumentsAt_single r d hb]
      cases r.outcomeAt d n <;> simp [Except.map]

theorem argumentsAt_cons (a : Argument (Expression V)) (as : List (Argument (Expression V))) :
    r.argumentsAt d (a :: as) =
      (r.argumentsAt d [a]).bind fun x => (r.argumentsAt d as).map (x ++ ·) :=
  r.argumentsAt_append d [a] as

theorem argumentsAt_eq_ok_iff {as out : List (Argument (Expression V))} :
    r.argumentsAt d as = .ok out ↔
      ∃ blocks, List.Forall₂ (r.Becomes d) as blocks ∧ out = blocks.flatten := by
  induction as generalizing out with
  | nil => simp [argumentsAt_nil, eq_comm]
  | cons a as ih =>
    rw [argumentsAt_cons]
    constructor
    · intro h
      cases ha : r.argumentsAt d [a] with
      | error e =>
        rw [ha] at h
        contradiction
      | ok block =>
        cases has : r.argumentsAt d as with
        | error e =>
          rw [ha, has] at h
          contradiction
        | ok rest =>
          rw [ha, has] at h
          obtain rfl := Except.ok.inj h
          obtain ⟨blocks, hblocks, rfl⟩ := ih.mp has
          exact ⟨block :: blocks, .cons ((r.becomes_iff d).mpr ha) hblocks, rfl⟩
    · rintro ⟨_, hblocks, rfl⟩
      cases hblocks with
      | cons ha has =>
        rw [(r.becomes_iff d).mp ha, ih.mpr ⟨_, has, rfl⟩]
        rfl

theorem argumentsAt_eq_error_iff {as : List (Argument (Expression V))} {e : Fault (Value V)} :
    r.argumentsAt d as = .error e ↔
      ∃ before a after, as = before ++ a :: after ∧
        (∀ b ∈ before, ∃ block, r.Becomes d b block) ∧ r.FailsWith d a e := by
  induction as with
  | nil => simp [argumentsAt_nil]
  | cons a as ih =>
    rw [argumentsAt_cons]
    constructor
    · intro h
      cases ha : r.argumentsAt d [a] with
      | error e' =>
        rw [ha] at h
        obtain rfl := Except.error.inj h
        exact ⟨[], a, as, rfl, by simp, (r.failsWith_iff d).mpr ha⟩
      | ok block =>
        have has : r.argumentsAt d as = .error e := by
          rw [ha] at h
          cases has : r.argumentsAt d as with
          | error e' =>
            rw [has] at h
            exact h
          | ok rest =>
            rw [has] at h
            contradiction
        obtain ⟨before, b, after, rfl, hbefore, hb⟩ := ih.mp has
        refine ⟨a :: before, b, after, rfl, ?_, hb⟩
        exact List.forall_mem_cons.mpr ⟨⟨block, (r.becomes_iff d).mpr ha⟩, hbefore⟩
    · rintro ⟨before, b, after, heq, hbefore, hb⟩
      cases before with
      | nil =>
        obtain ⟨rfl, rfl⟩ := List.cons.inj heq
        rw [(r.failsWith_iff d).mp hb]
        rfl
      | cons a' before =>
        obtain ⟨rfl, rfl⟩ := List.cons.inj heq
        obtain ⟨⟨block, ha⟩, hbefore⟩ := List.forall_mem_cons.mp hbefore
        rw [(r.becomes_iff d).mp ha, ih.mpr ⟨before, b, after, rfl, hbefore, hb⟩]
        rfl

theorem head_fst (ls : List Lookup) (f : Symbol) :
    (r.head f ⟨d, ls⟩).1 =
      settled (refusal? r.find? f) (((r.find? f).bind Value.target?).getD f) := by
  obtain ⟨_, h⟩ := r.head_yields d f ls
  rw [h]

theorem settled_cons {α : Type} (n : Expression V) (vs : List (Visit (Value V))) (a : α) :
    settled (firstOffence? r (⟨d + 1, n⟩ :: vs)) a =
      if r.limit ≤ d then .error (.tooDeep r.limit)
      else settled ((n.headFault? r.find?).or (firstOffence? r vs)) a := by
  rw [firstOffence?_cons, offence?_or]
  by_cases h : r.limit ≤ d
  · rw [if_pos h, if_pos (by omega)]
    rfl
  · rw [if_neg h, if_neg (by omega)]

theorem outcomeAt_call (f : Symbol) (as : List (Argument (Expression V))) :
    r.outcomeAt d (.call f as) =
      if r.limit ≤ d then .error (.tooDeep r.limit)
      else (r.head f ⟨d + 1, []⟩).1.bind fun g => (r.argumentsAt (d + 1) as).map (.call g) := by
  have hhead : (Node.call f as).headFault? r.find? = refusal? r.find? f := rfl
  rw [outcomeAt, argumentsAt, substitute_fst, substituteArguments_fst, head_fst, Node.visits,
    Node.graft, settled_cons, hhead, settled_or]

theorem outcomeAt_index (b : Expression V) (as : List (Argument (Expression V))) (exact : Bool) :
    r.outcomeAt d (.index b as exact) =
      if r.limit ≤ d then .error (.tooDeep r.limit)
      else (r.outcomeAt (d + 1) b).bind fun b =>
        (r.argumentsAt (d + 1) as).map fun as => .index b as exact := by
  have hhead : (Node.index b as exact).headFault? r.find? = none := rfl
  rw [outcomeAt, argumentsAt, outcomeAt, substitute_fst, substituteArguments_fst, substitute_fst,
    Node.visits, Node.graft, settled_cons, firstOffence?_append, hhead, Option.none_or,
    settled_or _ _ _ _ fun b as => Node.index b as exact]

theorem exists_argumentsAt_eq_ok_iff {as : List (Argument (Expression V))} :
    (∃ out, r.argumentsAt d as = .ok out) ↔ ∀ a ∈ as, ∀ e, ¬ r.FailsWith d a e := by
  constructor
  · rintro ⟨out, hout⟩ a ha e he
    obtain ⟨before, after, rfl⟩ := List.append_of_mem ha
    rw [argumentsAt_append, argumentsAt_cons, (r.failsWith_iff d).mp he] at hout
    cases hbefore : r.argumentsAt d before <;> rw [hbefore] at hout <;> contradiction
  · intro h
    cases hout : r.argumentsAt d as with
    | ok out => exact ⟨out, rfl⟩
    | error e =>
      obtain ⟨before, a, after, rfl, -, ha⟩ := (r.argumentsAt_eq_error_iff d).mp hout
      exact absurd ha (h a (by simp) e)

end Rules

namespace Substitution

/-- The list of a call and that of an index, one level below it, become their blocks one after
another if no argument fails, and fail with the leftmost fault if one does. So concatenated lists
become the concatenation of what they become. -/
theorem argument_lists_by_blocks (s : Substitution V) (o : Objects (Value V)) (d : Nat)
    (as : List (Argument (Expression V))) :
    let r := s.rules o
    let outcome := r.argumentsAt (d + 1) as
    (∀ f, r.outcomeAt d (.call f as) =
      if s.limit ≤ d then .error (.tooDeep s.limit)
      else (r.head f ⟨d + 1, []⟩).1.bind fun g => outcome.map (.call g)) ∧
    (∀ b exact, r.outcomeAt d (.index b as exact) =
      if s.limit ≤ d then .error (.tooDeep s.limit)
      else (r.outcomeAt (d + 1) b).bind fun b => outcome.map fun as => .index b as exact) ∧
    ((∃ out, outcome = .ok out) ↔ ∀ a ∈ as, ∀ e, ¬ r.FailsWith (d + 1) a e) ∧
    (∀ out, outcome = .ok out ↔
      ∃ blocks, List.Forall₂ (r.Becomes (d + 1)) as blocks ∧ out = blocks.flatten) ∧
    (∀ e, outcome = .error e ↔
      ∃ before a after, as = before ++ a :: after ∧
        (∀ b ∈ before, ∃ block, r.Becomes (d + 1) b block) ∧ r.FailsWith (d + 1) a e) ∧
    ∀ bs, r.argumentsAt (d + 1) (as ++ bs) =
      outcome.bind fun x => (r.argumentsAt (d + 1) bs).map (x ++ ·) := by
  intro r outcome
  refine ⟨fun f => r.outcomeAt_call d f as, fun b exact => r.outcomeAt_index d b as exact, ?_, ?_,
    ?_, ?_⟩
  · exact r.exists_argumentsAt_eq_ok_iff (d + 1)
  · exact fun out => r.argumentsAt_eq_ok_iff (d + 1)
  · exact fun e => r.argumentsAt_eq_error_iff (d + 1)
  · exact fun bs => r.argumentsAt_append (d + 1) as bs

/-- A labelled `...` gives way to three entries between a symbol and a hole. One level further down,
at the limit, the symbol fails and the bundle does not. -/
theorem argument_lists_by_blocks_between :
    let entries : List (Argument Value) :=
      [⟨some ⟨"k"⟩, some .null⟩, ⟨some ⟨"z"⟩, none⟩, ⟨none, none⟩]
    let s : Substitution := ⟨.list (.labelled [⟨some Symbol.dots, .bundle entries⟩]), 2⟩
    let r := s.rules Objects.empty
    let rest : Argument Expression := ⟨some ⟨"l"⟩, some (.symbol Symbol.dots)⟩
    let a : Argument Expression := ⟨none, some (.symbol ⟨"a"⟩)⟩
    let out : List (Argument Expression) :=
      [a, ⟨some ⟨"k"⟩, some (.constant .null)⟩, ⟨none, some (.symbol ⟨"z"⟩)⟩, ⟨none, none⟩,
        ⟨some ⟨"h"⟩, none⟩]
    (s.apply Objects.empty (.call ⟨"f"⟩ [a, rest, ⟨some ⟨"h"⟩, none⟩])).1 =
        .ok (.call ⟨"f"⟩ out) ∧
      (∃ blocks, List.Forall₂ (r.Becomes 1) [a, rest, ⟨some ⟨"h"⟩, none⟩] blocks ∧
        out = blocks.flatten) ∧
      r.argumentsAt 2 [rest] = .ok (entries.map Argument.ofEntry) ∧
      (∀ e, ¬ r.FailsWith 2 rest e) ∧ r.argumentsAt 2 [rest, a] = .error (.tooDeep 2) := by
  intro entries s r rest a out
  obtain ⟨hcall, -, -, hblocks, -⟩ :=
    argument_lists_by_blocks s Objects.empty 0 [a, rest, ⟨some ⟨"h"⟩, none⟩]
  obtain ⟨-, -, hfails, -⟩ := argument_lists_by_blocks s Objects.empty 1 [rest]
  have hrest : r.argumentsAt 2 [rest] = .ok (entries.map Argument.ofEntry) := rfl
  exact ⟨hcall ⟨"f"⟩, (hblocks out).mp rfl, hrest, hfails.mp ⟨_, hrest⟩ rest (by simp), rfl⟩

end Substitution

end Deferred
