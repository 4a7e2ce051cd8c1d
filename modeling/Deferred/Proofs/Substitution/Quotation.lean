import Deferred.Proofs.Substitution.Closed

/-!
# Quoting and splicing

A result is quoted unless it is a constant, and a binding is spliced in as the tree that it quotes.
The two undo each other where no level of quoting is lost. So a result that is bound to a name comes
back wherever that name stands for a tree.
-/
set_option autoImplicit false

namespace Deferred

variable {V : Kind → Type}

/-- The expression is a constant that holds an expression itself. -/
def Node.holdsSyntax : Expression V → Bool
  | .constant (.promise _ _ _) => true
  | .constant (.language _) => true
  | _ => false

/-- The value is a promise, or the quotation of a constant. -/
def Value.isOverquoted : Value V → Bool
  | promise _ _ _ => true
  | language (.constant _) => true
  | _ => false

namespace Value

theorem ne_constant_promise (id : PromiseId) (n : Expression V) (scope : Option EnvironmentId) :
    n ≠ .constant (.promise id n scope) := by
  intro h
  have hsize := congrArg sizeOf h
  simp only [Node.constant.sizeOf_spec, promise.sizeOf_spec] at hsize
  omega

theorem ne_constant_language (n : Expression V) : n ≠ .constant (.language n) := by
  intro h
  have hsize := congrArg sizeOf h
  simp only [Node.constant.sizeOf_spec, language.sizeOf_spec] at hsize
  omega

/-- A quoted expression is spliced in as it was. -/
theorem tree_ofExpression_iff (n : Expression V) :
    (ofExpression n).tree = n ↔ n.holdsSyntax = false := by
  cases n with
  | constant v =>
    cases v with
    | promise id m scope =>
      rw [ofExpression, tree_promise]
      exact iff_of_false (ne_constant_promise id m scope) Bool.noConfusion
    | language m =>
      rw [ofExpression, tree_language]
      exact iff_of_false (ne_constant_language m) Bool.noConfusion
    | _ => exact iff_of_true rfl rfl
  | _ => exact iff_of_true (tree_language _) rfl

/-- A spliced binding is quoted as it was. -/
theorem ofExpression_tree_iff (v : Value V) :
    ofExpression v.tree = v ↔ v.isOverquoted = false := by
  cases v with
  | promise id n scope =>
    rw [tree_promise]
    refine iff_of_false (fun h => ?_) Bool.noConfusion
    cases n with
    | constant v => exact ne_constant_promise id (.constant v) scope (congrArg Node.constant h)
    | _ => simp [ofExpression] at h
  | language n =>
    rw [tree_language]
    cases n with
    | constant v =>
      exact iff_of_false (fun h => ne_constant_language (.constant v) (congrArg Node.constant h))
        Bool.noConfusion
    | _ => exact iff_of_true rfl rfl
  | _ => exact iff_of_true rfl rfl

end Value

namespace Node

section Put

variable {α : Type} (z : Symbol) (t : Node α)

mutual

/-- The expression with a tree in every place where a symbol stands for one. Other names, such as
those of call heads, stay. -/
def put : Node α → Node α
  | .constant v => .constant v
  | .symbol name => if name = z then t else .symbol name
  | .call f as => .call f (putArguments as)
  | .block ss => .block (putNodes ss)
  | .ifElse c d none => .ifElse (put c) (put d) none
  | .ifElse c d (some e) => .ifElse (put c) (put d) (some (put e))
  | .whileLoop c b => .whileLoop (put c) (put b)
  | .repeatLoop b => .repeatLoop (put b)
  | .forLoop x s b => .forLoop x (put s) (put b)
  | .function fs b => .function (putFormals fs) (put b)
  | .assign x v isSuper => .assign x (put v) isSuper
  | .binary op l m => .binary op (put l) (put m)
  | .unary op x => .unary op (put x)
  | .index b as exact => .index (put b) (putArguments as) exact
  | .field b x => .field (put b) x
  | .nextLoop => .nextLoop
  | .breakLoop => .breakLoop

def putArguments : List (Argument (Node α)) → List (Argument (Node α))
  | [] => []
  | ⟨name, none⟩ :: as => ⟨name, none⟩ :: putArguments as
  | ⟨name, some n⟩ :: as => ⟨name, some (put n)⟩ :: putArguments as

def putNodes : List (Node α) → List (Node α)
  | [] => []
  | n :: ns => put n :: putNodes ns

def putFormals : List (Formal (Node α)) → List (Formal (Node α))
  | [] => []
  | ⟨name, none⟩ :: fs => ⟨name, none⟩ :: putFormals fs
  | ⟨name, some n⟩ :: fs => ⟨name, some (put n)⟩ :: putFormals fs

end

theorem putArguments_append (as bs : List (Argument (Node α))) :
    putArguments z t (as ++ bs) = putArguments z t as ++ putArguments z t bs := by
  induction as with
  | nil => rfl
  | cons a as ih =>
    obtain ⟨name, value⟩ := a
    cases value with
    | none => rw [List.cons_append, putArguments, putArguments, ih, List.cons_append]
    | some n => rw [List.cons_append, putArguments, putArguments, ih, List.cons_append]

variable {z}

mutual

theorem put_of_notMem : ∀ n : Node α, z ∉ n.names → put z t n = n
  | .constant _, _ => rfl
  | .symbol name, h => by
    rw [put, if_neg]
    rintro rfl
    exact h (List.mem_singleton.2 rfl)
  | .call f as, h => by
    rw [names, List.mem_cons, not_or] at h
    rw [put, putArguments_of_notMem as h.2]
  | .block ss, h => by rw [put, putNodes_of_notMem ss h]
  | .ifElse c d none, h => by
    rw [names, List.mem_append, not_or] at h
    rw [put, put_of_notMem c h.1, put_of_notMem d h.2]
  | .ifElse c d (some e), h => by
    rw [names, List.mem_append, List.mem_append, not_or, not_or] at h
    rw [put, put_of_notMem c h.1.1, put_of_notMem d h.1.2, put_of_notMem e h.2]
  | .whileLoop c b, h => by
    rw [names, List.mem_append, not_or] at h
    rw [put, put_of_notMem c h.1, put_of_notMem b h.2]
  | .repeatLoop b, h => by rw [put, put_of_notMem b h]
  | .forLoop _ s b, h => by
    rw [names, List.mem_append, not_or] at h
    rw [put, put_of_notMem s h.1, put_of_notMem b h.2]
  | .function fs b, h => by
    rw [names, List.mem_append, not_or] at h
    rw [put, putFormals_of_notMem fs h.1, put_of_notMem b h.2]
  | .assign _ v _, h => by rw [put, put_of_notMem v h]
  | .binary _ l m, h => by
    rw [names, List.mem_append, not_or] at h
    rw [put, put_of_notMem l h.1, put_of_notMem m h.2]
  | .unary _ x, h => by rw [put, put_of_notMem x h]
  | .index b as _, h => by
    rw [names, List.mem_append, not_or] at h
    rw [put, put_of_notMem b h.1, putArguments_of_notMem as h.2]
  | .field b _, h => by rw [put, put_of_notMem b h]
  | .nextLoop, _ => rfl
  | .breakLoop, _ => rfl

theorem putArguments_of_notMem : ∀ as : List (Argument (Node α)), z ∉ namesArguments as →
    putArguments z t as = as
  | [], _ => rfl
  | ⟨_, none⟩ :: as, h => by rw [putArguments, putArguments_of_notMem as h]
  | ⟨_, some n⟩ :: as, h => by
    rw [namesArguments, List.mem_append, not_or] at h
    rw [putArguments, put_of_notMem n h.1, putArguments_of_notMem as h.2]

theorem putNodes_of_notMem : ∀ ns : List (Node α), z ∉ namesNodes ns → putNodes z t ns = ns
  | [], _ => rfl
  | n :: ns, h => by
    rw [namesNodes, List.mem_append, not_or] at h
    rw [putNodes, put_of_notMem n h.1, putNodes_of_notMem ns h.2]

theorem putFormals_of_notMem : ∀ fs : List (Formal (Node α)), z ∉ namesFormals fs →
    putFormals z t fs = fs
  | [], _ => rfl
  | ⟨_, none⟩ :: fs, h => by rw [putFormals, putFormals_of_notMem fs h]
  | ⟨_, some n⟩ :: fs, h => by
    rw [namesFormals, List.mem_append, not_or] at h
    rw [putFormals, put_of_notMem n h.1, putFormals_of_notMem fs h.2]

end

end Put

end Node

/-- A symbol that a look-up neither binds nor brings in, to mark the places of one that it binds. -/
structure Placeholder (σ : Symbol → Option (Value V)) (z x : Symbol) (v : Value V) : Prop where
  bound : σ x = some v
  ne_dots : x ≠ Symbol.dots
  unbound : σ z = none
  foreign : ¬ Brings σ z

namespace Node

variable {σ : Symbol → Option (Value V)} {x z : Symbol} {v : Value V}

theorem isDots_put (hx : x ≠ Symbol.dots) (hz : z ≠ Symbol.dots) (n : Expression V) :
    (put z (.symbol x) n).isDots = n.isDots := by
  cases n with
  | symbol name =>
    by_cases hname : name = z
    · rw [put, if_pos hname, hname]
      simp [isDots, symbol?, hx, hz]
    · rw [put, if_neg hname]
  | ifElse c d e => cases e <;> rfl
  | _ => rfl

theorem bundle?_put (h : Placeholder σ z x v) (n : Expression V) :
    (put z (.symbol x) n).bundle? σ = n.bundle? σ := by
  cases hs : σ Symbol.dots with
  | none => simp [bundle?, hs]
  | some w =>
    have hz : z ≠ Symbol.dots := by
      rintro rfl
      exact Option.some_ne_none w (hs.symm.trans h.unbound)
    rw [bundle?, bundle?, isDots_put h.ne_dots hz]

mutual

/-- The tree of the binding comes to stand where the symbol was put, and nowhere else. -/
theorem graft_put (h : Placeholder σ z x v) : ∀ n : Expression V,
    (put z (.symbol x) n).graft σ = put z v.tree (n.graft σ)
  | .constant _ => rfl
  | .symbol name => by
    by_cases hname : name = z
    · rw [put, if_pos hname, hname, graft, graft, h.bound, h.unbound]
      exact (if_pos rfl).symm
    · rw [put, if_neg hname, graft]
      cases hs : σ name with
      | none => exact (if_neg hname).symm
      | some w => exact (put_of_notMem v.tree w.tree fun hmem => h.foreign (.tree hs hmem)).symm
  | .call f as => by rw [put, graft, graft, put, graft_putArguments h as]
  | .block ss => by rw [put, graft, graft, put, graft_putNodes h ss]
  | .ifElse c d none => by rw [put, graft, graft, put, graft_put h c, graft_put h d]
  | .ifElse c d (some e) => by
    rw [put, graft, graft, put, graft_put h c, graft_put h d, graft_put h e]
  | .whileLoop c b => by rw [put, graft, graft, put, graft_put h c, graft_put h b]
  | .repeatLoop b => by rw [put, graft, graft, put, graft_put h b]
  | .forLoop _ s b => by rw [put, graft, graft, put, graft_put h s, graft_put h b]
  | .function fs b => by rw [put, graft, graft, put, graft_putFormals h fs, graft_put h b]
  | .assign _ w _ => by rw [put, graft, graft, put, graft_put h w]
  | .binary _ l m => by rw [put, graft, graft, put, graft_put h l, graft_put h m]
  | .unary _ y => by rw [put, graft, graft, put, graft_put h y]
  | .index b as _ => by rw [put, graft, graft, put, graft_put h b, graft_putArguments h as]
  | .field b _ => by rw [put, graft, graft, put, graft_put h b]
  | .nextLoop => rfl
  | .breakLoop => rfl

theorem graft_putArguments (h : Placeholder σ z x v) : ∀ as : List (Argument (Expression V)),
    graftArguments σ (putArguments z (.symbol x) as) = putArguments z v.tree (graftArguments σ as)
  | [] => rfl
  | ⟨_, none⟩ :: as => by
    rw [putArguments, graftArguments, graftArguments, putArguments, graft_putArguments h as]
  | ⟨name, some n⟩ :: as => by
    rw [putArguments, graftArguments, graftArguments, putArguments_append, graft_putArguments h as,
      bundle?_put h]
    congr 1
    cases hb : n.bundle? σ with
    | some entries =>
      have hforeign := fun hmem => h.foreign (.of_bundle (bind_of_bundle?_eq_some hb) hmem)
      exact (putArguments_of_notMem v.tree _ hforeign).symm
    | none => simp only [putArguments, graft_put h n]

theorem graft_putNodes (h : Placeholder σ z x v) : ∀ ns : List (Expression V),
    graftNodes σ (putNodes z (.symbol x) ns) = putNodes z v.tree (graftNodes σ ns)
  | [] => rfl
  | n :: ns => by
    rw [putNodes, graftNodes, graftNodes, putNodes, graft_put h n, graft_putNodes h ns]

theorem graft_putFormals (h : Placeholder σ z x v) : ∀ fs : List (Formal (Expression V)),
    graftFormals σ (putFormals z (.symbol x) fs) = putFormals z v.tree (graftFormals σ fs)
  | [] => rfl
  | ⟨_, none⟩ :: fs => by
    rw [putFormals, graftFormals, graftFormals, putFormals, graft_putFormals h fs]
  | ⟨_, some n⟩ :: fs => by
    rw [putFormals, graftFormals, graftFormals, putFormals, graft_put h n, graft_putFormals h fs]

end

section Faults

variable {r : Rules V} {spliced : Bool}

theorem firstOffence?_cons_congr {d : Nat} {m n : Expression V} {vs ws : List (Visit (Value V))}
    (hroot : m.headFault? r.find? = n.headFault? r.find?)
    (hrest : firstOffence? r vs = firstOffence? r ws) :
    firstOffence? r (⟨d, m⟩ :: vs) = firstOffence? r (⟨d, n⟩ :: ws) := by
  rw [firstOffence?_cons, firstOffence?_cons, Visit.offence?, Visit.offence?, hroot, hrest]

theorem firstOffence?_append_congr {vs ws vs' ws' : List (Visit (Value V))}
    (h : firstOffence? r vs = firstOffence? r ws) (h' : firstOffence? r vs' = firstOffence? r ws') :
    firstOffence? r (vs ++ vs') = firstOffence? r (ws ++ ws') := by
  rw [firstOffence?_append, firstOffence?_append, h, h']

mutual

theorem firstOffence?_put (hx : x ≠ Symbol.dots) (hz : spliced = true → z ≠ Symbol.dots)
    (d : Nat) : ∀ n : Expression V,
    firstOffence? r ((put z (.symbol x) n).visits spliced d) = firstOffence? r (n.visits spliced d)
  | .constant _ => rfl
  | .symbol name => by
    by_cases hname : name = z
    · rw [put, if_pos hname]
      rfl
    · rw [put, if_neg hname]
  | .call _ as => firstOffence?_cons_congr rfl (firstOffence?_putArguments hx hz (d + 1) as)
  | .block ss => firstOffence?_cons_congr rfl (firstOffence?_putNodes hx hz (d + 1) ss)
  | .ifElse c t none => firstOffence?_cons_congr rfl (firstOffence?_append_congr
      (firstOffence?_put hx hz (d + 1) c) (firstOffence?_put hx hz (d + 1) t))
  | .ifElse c t (some e) => firstOffence?_cons_congr rfl (firstOffence?_append_congr
      (firstOffence?_put hx hz (d + 1) c) (firstOffence?_append_congr
        (firstOffence?_put hx hz (d + 1) t) (firstOffence?_put hx hz (d + 1) e)))
  | .whileLoop c b => firstOffence?_cons_congr rfl (firstOffence?_append_congr
      (firstOffence?_put hx hz (d + 1) c) (firstOffence?_put hx hz (d + 1) b))
  | .repeatLoop b => firstOffence?_cons_congr rfl (firstOffence?_put hx hz (d + 1) b)
  | .forLoop _ s b => firstOffence?_cons_congr rfl (firstOffence?_append_congr
      (firstOffence?_put hx hz (d + 1) s) (firstOffence?_put hx hz (d + 1) b))
  | .function fs b => firstOffence?_cons_congr rfl (firstOffence?_append_congr
      (firstOffence?_putFormals hx hz (d + 1) fs) (firstOffence?_put hx hz (d + 1) b))
  | .assign _ v _ => firstOffence?_cons_congr rfl (firstOffence?_put hx hz (d + 1) v)
  | .binary _ l m => firstOffence?_cons_congr rfl (firstOffence?_append_congr
      (firstOffence?_put hx hz (d + 1) l) (firstOffence?_put hx hz (d + 1) m))
  | .unary _ y => firstOffence?_cons_congr rfl (firstOffence?_put hx hz (d + 1) y)
  | .index b as _ => firstOffence?_cons_congr rfl (firstOffence?_append_congr
      (firstOffence?_put hx hz (d + 1) b) (firstOffence?_putArguments hx hz (d + 1) as))
  | .field b _ => firstOffence?_cons_congr rfl (firstOffence?_put hx hz (d + 1) b)
  | .nextLoop => rfl
  | .breakLoop => rfl

theorem firstOffence?_putArguments (hx : x ≠ Symbol.dots) (hz : spliced = true → z ≠ Symbol.dots)
    (d : Nat) : ∀ as : List (Argument (Expression V)),
    firstOffence? r (visitsArguments spliced d (putArguments z (.symbol x) as)) =
      firstOffence? r (visitsArguments spliced d as)
  | [] => rfl
  | ⟨_, none⟩ :: as => firstOffence?_putArguments hx hz d as
  | ⟨_, some n⟩ :: as => by
    have hdots : (spliced && (put z (.symbol x) n).isDots) = (spliced && n.isDots) := by
      cases hs : spliced with
      | false => rfl
      | true => rw [isDots_put hx (hz hs)]
    refine firstOffence?_append_congr ?_ (firstOffence?_putArguments hx hz d as)
    rw [hdots]
    split
    · rfl
    · exact firstOffence?_put hx hz d n

theorem firstOffence?_putNodes (hx : x ≠ Symbol.dots) (hz : spliced = true → z ≠ Symbol.dots)
    (d : Nat) : ∀ ns : List (Expression V),
    firstOffence? r (visitsNodes spliced d (putNodes z (.symbol x) ns)) =
      firstOffence? r (visitsNodes spliced d ns)
  | [] => rfl
  | n :: ns => firstOffence?_append_congr (firstOffence?_put hx hz d n)
      (firstOffence?_putNodes hx hz d ns)

theorem firstOffence?_putFormals (hx : x ≠ Symbol.dots) (hz : spliced = true → z ≠ Symbol.dots)
    (d : Nat) : ∀ fs : List (Formal (Expression V)),
    firstOffence? r (visitsFormals spliced d (putFormals z (.symbol x) fs)) =
      firstOffence? r (visitsFormals spliced d fs)
  | [] => rfl
  | ⟨_, none⟩ :: fs => firstOffence?_putFormals hx hz d fs
  | ⟨_, some n⟩ :: fs => firstOffence?_append_congr (firstOffence?_put hx hz d n)
      (firstOffence?_putFormals hx hz d fs)

end

end Faults

end Node

namespace Substitution

variable {o : Objects (Value V)}

/-- In the places of a placeholder, a bound symbol gives its tree; it changes nothing else. -/
theorem apply_put {s : Substitution V} {z x : Symbol} {v : Value V}
    (h : Placeholder (s.source.find? o) z x v) (n : Expression V) :
    (s.apply o (.put z (.symbol x) n)).1 = (s.apply o n).1.map (.put z v.tree) := by
  have hz : bindsBundle (s.source.find? o) = true → z ≠ Symbol.dots := by
    rintro hbinds rfl
    rw [bindsBundle, h.unbound] at hbinds
    exact Bool.noConfusion hbinds
  rw [apply_fst, apply_fst, visits, visits, Node.firstOffence?_put h.ne_dots hz, Node.graft_put h]
  cases firstOffence? (s.rules o) (n.visits (bindsBundle (s.source.find? o)) 1) <;> rfl

theorem apply_symbol {source : Source (Value V)} {x : Symbol} {v : Value V}
    (h : source.find? o x = some v) {limit : Nat} (hlimit : 0 < limit) :
    (apply ⟨source, limit⟩ o (.symbol x)).1 = .ok v.tree := by
  rw [apply_eq_ok_iff]
  refine ⟨fun u hu => ?_, ?_⟩
  · obtain rfl := List.mem_singleton.1 hu
    exact if_neg (Nat.not_lt.2 hlimit)
  · rw [Node.graft, h]
    rfl

/-- What an expression stands for is spliced in as that expression, unless it is a constant that
holds a promise or a quotation; what a value is spliced in as stands for that value, unless it is a
promise or the quotation of a constant. So the value of any substitution whose result is no such
constant leads back to that result: bound to a name in any source, it comes to stand wherever that
name is put, by itself or in a tree, in which all else goes on as without it. -/
theorem quoting_and_splicing (s : Substitution V) (o : Objects (Value V)) :
    (∀ n : Expression V, (Value.ofExpression n).tree = n ↔ n.holdsSyntax = false) ∧
    (∀ v : Value V, Value.ofExpression v.tree = v ↔ v.isOverquoted = false) ∧
    ∀ n r : Expression V, (s.apply o n).1 = .ok r → r.holdsSyntax = false →
      ∃ v, (s.applyValue o n).1 = .ok v ∧ v.tree = r ∧
        ∀ (t : Source (Value V)) (o' : Objects (Value V)) (x : Symbol), t.find? o' x = some v →
          x ≠ Symbol.dots →
          (∀ limit, 0 < limit → (apply ⟨t, limit⟩ o' (.symbol x)).1 = .ok r) ∧
          ∀ z : Symbol, t.find? o' z = none → ¬ Brings (t.find? o') z → ∀ limit m,
            (apply ⟨t, limit⟩ o' (.put z (.symbol x) m)).1 =
              (apply ⟨t, limit⟩ o' m).1.map (.put z r) := by
  refine ⟨Value.tree_ofExpression_iff, Value.ofExpression_tree_iff, fun n r hr hsyntax => ?_⟩
  have htree : (Value.ofExpression r).tree = r := (Value.tree_ofExpression_iff r).2 hsyntax
  refine ⟨.ofExpression r, ?_, htree, fun t o' x hx hne => ⟨fun limit hlimit => ?_, ?_⟩⟩
  · exact congrArg (Except.map Value.ofExpression) hr
  · rw [apply_symbol hx hlimit, htree]
  · intro z hz hforeign limit m
    rw [apply_put (s := ⟨t, limit⟩) ⟨hx, hne, hz, hforeign⟩, htree]

/-- A call with a spliced promise, bound to `x`, put in two places of a call that is retargeted. -/
theorem quoting_and_splicing_call :
    let sum : Expression := .binary .add (.symbol ⟨"u"⟩) (.symbol ⟨"w"⟩)
    let first : Substitution :=
      ⟨.list (.labelled [⟨some Symbol.dots, .bundle [⟨none, some (.promise ⟨0⟩ sum none)⟩]⟩]), 3⟩
    let n : Expression := .call ⟨"f"⟩ [⟨none, some (.symbol Symbol.dots)⟩]
    let r : Expression := .call ⟨"f"⟩ [⟨none, some sum⟩]
    let t : Source := .list (.labelled [⟨some ⟨"x"⟩, .language r⟩, ⟨some ⟨"g"⟩, .symbol ⟨"h"⟩⟩])
    let m (place : Expression) : Expression :=
      .call ⟨"g"⟩ [⟨none, some place⟩, ⟨some ⟨"x"⟩, some (.unary .not place)⟩]
    (first.apply Objects.empty n).1 = .ok r ∧
      (first.applyValue Objects.empty n).1 = .ok (.language r) ∧
      ((mk t 1).apply Objects.empty (.symbol ⟨"x"⟩)).1 = .ok r ∧
      ((mk t 3).apply Objects.empty (m (.symbol ⟨"x"⟩))).1 =
        .ok (.call ⟨"h"⟩ [⟨none, some r⟩, ⟨some ⟨"x"⟩, some (.unary .not r)⟩]) := by
  intro sum first n r t m
  have hr : (first.apply Objects.empty n).1 = .ok r := rfl
  obtain ⟨-, -, hresult⟩ := quoting_and_splicing first Objects.empty
  obtain ⟨v, hv, -, hbound⟩ := hresult n r hr rfl
  obtain rfl : Value.language r = v := Except.ok.inj hv
  obtain ⟨halone, hplaced⟩ := hbound t Objects.empty ⟨"x"⟩ rfl (by decide)
  have hforeign : ¬ Brings (t.find? Objects.empty) ⟨"place"⟩ := by
    intro h
    obtain ⟨e, he, hmem⟩ := h.exists_item
    revert e
    decide
  exact ⟨hr, hv, halone 1 Nat.one_pos, hplaced ⟨"place"⟩ rfl hforeign 3 (m (.symbol ⟨"place"⟩))⟩

end Substitution

end Deferred
