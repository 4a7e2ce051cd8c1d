import Deferred.Proofs.Objects
import Deferred.Proofs.Substitution.Names

set_option autoImplicit false

namespace Deferred

variable {V : Kind → Type}

/-- Two look-ups bind each of the names to the same, or both not at all. -/
def Coincide (σ τ : Symbol → Option (Value V)) (names : List Symbol) : Prop :=
  ∀ x ∈ names, σ x = τ x

section Coincide

variable {σ τ : Symbol → Option (Value V)}

theorem coincide_append {xs ys : List Symbol} :
    Coincide σ τ (xs ++ ys) ↔ Coincide σ τ xs ∧ Coincide σ τ ys :=
  List.forall_mem_append

theorem coincide_cons {x : Symbol} {xs : List Symbol} :
    Coincide σ τ (x :: xs) ↔ σ x = τ x ∧ Coincide σ τ xs :=
  List.forall_mem_cons

end Coincide

namespace Rules

variable {σ τ : Symbol → Option (Value V)} {limit : Nat}

theorem look_congr {x : Symbol} (h : σ x = τ x) :
    (mk σ limit).look x = (mk τ limit).look x := by
  funext w
  simp only [look, h]

theorem head_congr {f : Symbol} (h : σ f = τ f) :
    (mk σ limit).head f = (mk τ limit).head f := by
  simp only [head, look_congr h]

theorem bundleFor_congr {n : Expression V} (h : Coincide σ τ n.names) :
    (mk σ limit).bundleFor n = (mk τ limit).bundleFor n := by
  unfold bundleFor
  by_cases hd : n.symbol? = some Symbol.dots
  · have hnames : n.names = [Symbol.dots] := Node.names_of_isDots (by simp [Node.isDots, hd])
    have hdots : σ Symbol.dots = τ Symbol.dots := h _ (by simp [hnames])
    simp only [look_congr hdots]
  · simp only [hd, if_false]

mutual

theorem substitute_congr : ∀ n : Expression V, Coincide σ τ n.names →
    (mk σ limit).substitute n = (mk τ limit).substitute n
  | .constant _, _ => by simp only [substitute]
  | .symbol name, h => by
    have hname : σ name = τ name := h name (by simp [Node.names])
    simp only [substitute, look_congr hname]
  | .call f as, h => by
    rw [Node.names, coincide_cons] at h
    obtain ⟨hf, has⟩ := h
    simp only [substitute, head_congr hf, substituteArguments_congr as has]
  | .block ss, h => by
    rw [Node.names] at h
    simp only [substitute, substituteNodes_congr ss h]
  | .ifElse c t none, h => by
    rw [Node.names, coincide_append] at h
    obtain ⟨hc, ht⟩ := h
    simp only [substitute, substitute_congr c hc, substitute_congr t ht]
  | .ifElse c t (some e), h => by
    rw [Node.names, coincide_append, coincide_append] at h
    obtain ⟨⟨hc, ht⟩, he⟩ := h
    simp only [substitute, substitute_congr c hc, substitute_congr t ht, substitute_congr e he]
  | .whileLoop c b, h => by
    rw [Node.names, coincide_append] at h
    obtain ⟨hc, hb⟩ := h
    simp only [substitute, substitute_congr c hc, substitute_congr b hb]
  | .repeatLoop b, h => by
    rw [Node.names] at h
    simp only [substitute, substitute_congr b h]
  | .forLoop _ s b, h => by
    rw [Node.names, coincide_append] at h
    obtain ⟨hs, hb⟩ := h
    simp only [substitute, substitute_congr s hs, substitute_congr b hb]
  | .function fs b, h => by
    rw [Node.names, coincide_append] at h
    obtain ⟨hfs, hb⟩ := h
    simp only [substitute, substituteFormals_congr fs hfs, substitute_congr b hb]
  | .assign _ v _, h => by
    rw [Node.names] at h
    simp only [substitute, substitute_congr v h]
  | .binary _ l m, h => by
    rw [Node.names, coincide_append] at h
    obtain ⟨hl, hm⟩ := h
    simp only [substitute, substitute_congr l hl, substitute_congr m hm]
  | .unary _ x, h => by
    rw [Node.names] at h
    simp only [substitute, substitute_congr x h]
  | .index b as _, h => by
    rw [Node.names, coincide_append] at h
    obtain ⟨hb, has⟩ := h
    simp only [substitute, substitute_congr b hb, substituteArguments_congr as has]
  | .field b _, h => by
    rw [Node.names] at h
    simp only [substitute, substitute_congr b h]
  | .nextLoop, _ => by simp only [substitute]
  | .breakLoop, _ => by simp only [substitute]

theorem substituteArguments_congr : ∀ as : List (Argument (Expression V)),
    Coincide σ τ (Node.namesArguments as) →
      (mk σ limit).substituteArguments as = (mk τ limit).substituteArguments as
  | [], _ => by simp only [substituteArguments]
  | ⟨_, none⟩ :: as, h => by
    rw [Node.namesArguments] at h
    simp only [substituteArguments, substituteArguments_congr as h]
  | ⟨_, some n⟩ :: as, h => by
    rw [Node.namesArguments, coincide_append] at h
    obtain ⟨hn, has⟩ := h
    simp only [substituteArguments, bundleFor_congr hn, substitute_congr n hn,
      substituteArguments_congr as has]

theorem substituteNodes_congr : ∀ ns : List (Expression V),
    Coincide σ τ (Node.namesNodes ns) →
      (mk σ limit).substituteNodes ns = (mk τ limit).substituteNodes ns
  | [], _ => by simp only [substituteNodes]
  | n :: ns, h => by
    rw [Node.namesNodes, coincide_append] at h
    obtain ⟨hn, hns⟩ := h
    simp only [substituteNodes, substitute_congr n hn, substituteNodes_congr ns hns]

theorem substituteFormals_congr : ∀ fs : List (Formal (Expression V)),
    Coincide σ τ (Node.namesFormals fs) →
      (mk σ limit).substituteFormals fs = (mk τ limit).substituteFormals fs
  | [], _ => by simp only [substituteFormals]
  | ⟨_, none⟩ :: fs, h => by
    rw [Node.namesFormals] at h
    simp only [substituteFormals, substituteFormals_congr fs h]
  | ⟨_, some n⟩ :: fs, h => by
    rw [Node.namesFormals, coincide_append] at h
    obtain ⟨hn, hfs⟩ := h
    simp only [substituteFormals, substitute_congr n hn, substituteFormals_congr fs hfs]

end

end Rules

namespace Source

variable {o : Objects (Value V)} {x y : Symbol} {v : Value V}

theorem find?_frame_insert (h : y ≠ x) (f : Frame (Value V)) :
    (frame { f with slots := f.slots.insert x v }).find? o y = (frame f).find? o y := by
  have hxy : ¬ x = y := fun hxy => h hxy.symm
  simp only [find?, Bindings.find?_insert, if_neg hxy]

theorem find?_list_cons (h : y ≠ x) (es : List (Entry (Value V))) :
    (list (.labelled (⟨some x, v⟩ :: es))).find? o y = (list (.labelled es)).find? o y := by
  have hxy : ¬ some x = some y := fun hxy => h (Option.some.inj hxy).symm
  simp only [find?, Listing.lookup?, List.find?_cons, hxy, decide_false]

theorem find?_environment_define (h : y ≠ x) (id : EnvironmentId) :
    (environment id).find? (o.define id x v) y = (environment id).find? o y := by
  have hxy : ¬ x = y := fun hxy => h hxy.symm
  simp only [find?, Objects.environment_define]
  split
  · simp only [Bindings.find?_insert, if_neg hxy]
  · rfl

end Source

namespace Substitution

theorem apply_congr {a b : Source (Value V)} {o o' : Objects (Value V)} {n : Expression V}
    (h : Coincide (a.find? o) (b.find? o') n.names) (limit : Nat) :
    ((mk a limit).apply o n).1 = ((mk b limit).apply o' n).1 :=
  congrArg (fun walking => (walking Walk.start).1) (Rules.substitute_congr n h)

/-- The outcome of a substitution, be it a tree or a fault with all that its message tells, depends
on what the symbols and call heads of the expression are bound to and on nothing else: not on the
kind of the source, and not on a binding of any other name. -/
theorem apply_depends_on_names (n : Expression V) (limit : Nat) :
    (∀ (a b : Source (Value V)) (o o' : Objects (Value V)),
      (∀ x ∈ n.names, a.find? o x = b.find? o' x) →
        ((mk a limit).apply o n).1 = ((mk b limit).apply o' n).1) ∧
    ∀ (o : Objects (Value V)) (x : Symbol) (v : Value V), x ∉ n.names →
      (∀ f : Frame (Value V),
        ((mk (.frame { f with slots := f.slots.insert x v }) limit).apply o n).1 =
          ((mk (.frame f) limit).apply o n).1) ∧
      (∀ es : List (Entry (Value V)),
        ((mk (.list (.labelled (⟨some x, v⟩ :: es))) limit).apply o n).1 =
          ((mk (.list (.labelled es)) limit).apply o n).1) ∧
      ∀ id : EnvironmentId,
        ((mk (.environment id) limit).apply (o.define id x v) n).1 =
          ((mk (.environment id) limit).apply o n).1 := by
  refine ⟨fun a b o o' h => apply_congr h limit, fun o x v hx => ?_⟩
  have hne : ∀ y ∈ n.names, y ≠ x := fun y hy hyx => hx (hyx ▸ hy)
  refine ⟨fun f => ?_, fun es => ?_, fun id => ?_⟩
  · exact apply_congr (fun y hy => Source.find?_frame_insert (hne y hy) f) limit
  · exact apply_congr (fun y hy => Source.find?_list_cons (hne y hy) es) limit
  · exact apply_congr (fun y hy => Source.find?_environment_define (hne y hy) id) limit

/-- The frame also binds the target of the assignment, the label and the quoted name. -/
theorem apply_depends_on_names_assignment :
    let quoted : Expression := .constant (.language (.symbol ⟨"q"⟩))
    let n : Expression :=
      .assign ⟨"t"⟩ (.call ⟨"f"⟩ [⟨some ⟨"p"⟩, some (.symbol ⟨"x"⟩)⟩, ⟨none, some quoted⟩]) false
    let v : Value := .language (.symbol ⟨"y"⟩)
    let a : Source :=
      .frame ⟨none, Bindings.ofList
        [(⟨"t"⟩, .null), (⟨"p"⟩, .null), (⟨"q"⟩, .null), (⟨"x"⟩, v)]⟩
    let b : Source := .list (.labelled [⟨some ⟨"x"⟩, v⟩])
    (∀ x ∈ n.names, a.find? Objects.empty x = b.find? Objects.empty x) ∧
      ((mk a 3).apply Objects.empty n).1 = ((mk b 3).apply Objects.empty n).1 ∧
      ((mk b 3).apply Objects.empty n).1 =
        .ok (.assign ⟨"t"⟩
          (.call ⟨"f"⟩ [⟨some ⟨"p"⟩, some (.symbol ⟨"y"⟩)⟩, ⟨none, some quoted⟩]) false) := by
  intro quoted n v a b
  have h : ∀ x ∈ n.names, a.find? Objects.empty x = b.find? Objects.empty x := by
    intro x hx
    have hnames : n.names = [⟨"f"⟩, ⟨"x"⟩] := rfl
    rw [hnames] at hx
    simp only [List.mem_cons, List.not_mem_nil, or_false] at hx
    rcases hx with rfl | rfl <;> rfl
  exact ⟨h, (apply_depends_on_names n 3).1 a b Objects.empty Objects.empty h, rfl⟩

end Substitution

end Deferred
