import Deferred.Proofs.Substitution.Outcome

/-!
# One substitution for many expressions

The counter of a walk is mutable and outlives each expression. `Rules.watch` is the same walk with a
record of the nodes it comes to and of where the counter stands there. The counter stands at the
depth of each node, up to the first offence, and is back at its start whatever the outcome, so that
an expression fares after any others as it fares alone.
-/
set_option autoImplicit false

namespace Deferred

variable {V : Kind → Type}

/-- A step of a walk together with the nodes it comes to, each with the counter as it stands in the
node, or as it would if the node were not too deep. -/
abbrev Watching (V : Kind → Type) (α : Type) :=
  Walk → (Except (Fault (Value V)) α × Walk) × List (Visit (Value V))

namespace Watching

variable {α β : Type}

def ofWalking (x : Walking V α) : Watching V α := fun w => (x w, [])

def bind (x : Watching V α) (f : α → Watching V β) : Watching V β := fun w =>
  match x w with
  | ((.ok a, w), vs) => ((f a w).1, vs ++ (f a w).2)
  | ((.error e, w), vs) => ((.error e, w), vs)

/-- Comes to a node and runs a step one level deeper, unless the limit is reached. -/
def nested (limit : Nat) (n : Expression V) (x : Watching V α) : Watching V α := fun w =>
  let inner : Walk := { w with depth := w.depth + 1 }
  (Walking.nested limit (fun w => (x w).1) w,
    ⟨inner.depth, n⟩ :: if limit ≤ w.depth then [] else (x inner).2)

end Watching

instance : Monad (Watching V) where
  pure a := Watching.ofWalking (Walking.pure a)
  bind := Watching.bind

namespace Rules

mutual

/-- Substitution under watch: the nodes that `substitute` comes to are put on record. -/
def watch (r : Rules V) (n : Expression V) : Watching V (Expression V) :=
  Watching.nested r.limit n <|
    match n with
    | .constant v => return Node.duplicate (.constant v)
    | .symbol name => do
      match ← Watching.ofWalking (r.look name) with
      | some v => return v.tree
      | none => return .symbol name
    | .call f as => do
      let f ← Watching.ofWalking (r.head f)
      return .call f (← r.watchArguments as)
    | .block ss => return .block (← r.watchNodes ss)
    | .ifElse c t none => return .ifElse (← r.watch c) (← r.watch t) none
    | .ifElse c t (some e) =>
      return .ifElse (← r.watch c) (← r.watch t) (some (← r.watch e))
    | .whileLoop c b => return .whileLoop (← r.watch c) (← r.watch b)
    | .repeatLoop b => return .repeatLoop (← r.watch b)
    | .forLoop x s b => return .forLoop x (← r.watch s) (← r.watch b)
    | .function fs b => return .function (← r.watchFormals fs) (← r.watch b)
    | .assign x v isSuper => return .assign x (← r.watch v) isSuper
    | .binary op l m => return .binary op (← r.watch l) (← r.watch m)
    | .unary op x => return .unary op (← r.watch x)
    | .index b as exact => return .index (← r.watch b) (← r.watchArguments as) exact
    | .field b x => return .field (← r.watch b) x
    | .nextLoop => return .nextLoop
    | .breakLoop => return .breakLoop

def watchArguments (r : Rules V) :
    List (Argument (Expression V)) → Watching V (List (Argument (Expression V)))
  | [] => return []
  | ⟨name, none⟩ :: as => return ⟨name, none⟩ :: (← r.watchArguments as)
  | ⟨name, some n⟩ :: as => do
    match ← Watching.ofWalking (r.bundleFor n) with
    | some entries => return entries.map Argument.ofEntry ++ (← r.watchArguments as)
    | none =>
      let n ← r.watch n
      return ⟨name, some n⟩ :: (← r.watchArguments as)

def watchNodes (r : Rules V) : List (Expression V) → Watching V (List (Expression V))
  | [] => return []
  | n :: ns => do
    let n ← r.watch n
    return n :: (← r.watchNodes ns)

def watchFormals (r : Rules V) :
    List (Formal (Expression V)) → Watching V (List (Formal (Expression V)))
  | [] => return []
  | ⟨name, none⟩ :: fs => return ⟨name, none⟩ :: (← r.watchFormals fs)
  | ⟨name, some n⟩ :: fs => do
    let n ← r.watch n
    return ⟨name, some n⟩ :: (← r.watchFormals fs)

end

end Rules

/-- The visits up to the first offence, the offending one included. -/
def upToOffence (r : Rules V) : List (Visit (Value V)) → List (Visit (Value V))
  | [] => []
  | v :: vs => v :: if (v.offence? r).isSome then [] else upToOffence r vs

theorem upToOffence_append (r : Rules V) (vs ws : List (Visit (Value V))) :
    upToOffence r (vs ++ ws) =
      upToOffence r vs ++ if (firstOffence? r vs).isSome then [] else upToOffence r ws := by
  induction vs with
  | nil => rfl
  | cons v vs ih =>
    rw [List.cons_append, upToOffence, upToOffence, firstOffence?_cons]
    cases h : v.offence? r with
    | some e => simp
    | none =>
      rw [Option.none_or, ih]
      rfl

theorem upToOffence_cons (r : Rules V) (d : Nat) (n : Expression V)
    (vs : List (Visit (Value V))) :
    upToOffence r (⟨d + 1, n⟩ :: vs) =
      ⟨d + 1, n⟩ :: if r.limit ≤ d then []
        else if (n.headFault? r.find?).isSome then [] else upToOffence r vs := by
  by_cases h : r.limit ≤ d
  · have hlt : r.limit < d + 1 := by omega
    simp [upToOffence, Visit.offence?, h, hlt]
  · have hlt : ¬ r.limit < d + 1 := by omega
    simp [upToOffence, Visit.offence?, h, hlt]

namespace Watching

variable {α β : Type}

/-- Started at depth `d`, the watched step does what the step does and has `vs` on record. -/
def Records (y : Watching V α) (x : Walking V α) (d : Nat) (vs : List (Visit (Value V))) : Prop :=
  ∀ ls, y ⟨d, ls⟩ = (x ⟨d, ls⟩, vs)

theorem records_pure (d : Nat) (a : α) :
    Records (V := V) (Pure.pure a) (Pure.pure a) d [] := fun _ => rfl

theorem records_ofWalking (d : Nat) (x : Walking V α) : Records (ofWalking x) x d [] :=
  fun _ => rfl

theorem Records.bind {y : Watching V α} {x : Walking V α} {g : α → Watching V β}
    {f : α → Walking V β} {d : Nat} {vs ws : List (Visit (Value V))}
    {e : Option (Fault (Value V))} {a : α} (hy : Records y x d vs) (hx : x.Yields d e a)
    (hg : Records (g a) (f a) d ws) :
    Records (y >>= g) (x >>= f) d (vs ++ if e.isSome then [] else ws) := by
  intro ls
  obtain ⟨ls', hls⟩ := hx ls
  have hstep := hy ls
  rw [hls] at hstep
  change Watching.bind y g ⟨d, ls⟩ = (Walking.bind x f ⟨d, ls⟩, _)
  cases e with
  | some e =>
    rw [Walking.bind_of_error hls, Watching.bind, hstep]
    simp [settled]
  | none =>
    rw [Walking.bind_of_ok hls, Watching.bind, hstep]
    simp [settled, hg ls']

theorem Records.map {y : Watching V α} {x : Walking V α} {d : Nat}
    {vs : List (Visit (Value V))} {e : Option (Fault (Value V))} {a : α} (hy : Records y x d vs)
    (hx : x.Yields d e a) (f : α → β) :
    Records (y >>= fun a => Pure.pure (f a)) (x >>= fun a => Pure.pure (f a)) d vs := by
  have hf := hy.bind (g := fun a => Pure.pure (f a)) (f := fun a => Pure.pure (f a)) hx
    (records_pure d (f a))
  simpa using hf

theorem Records.nested {y : Watching V α} {x : Walking V α} {d : Nat}
    {vs : List (Visit (Value V))} (limit : Nat) (n : Expression V) (hy : Records y x (d + 1) vs) :
    Records (Watching.nested limit n y) (Walking.nested limit x) d
      (⟨d + 1, n⟩ :: if limit ≤ d then [] else vs) := by
  intro ls
  by_cases h : limit ≤ d
  · simp [Watching.nested, Walking.nested, h]
  · simp [Watching.nested, Walking.nested, h, hy ls]

end Watching

namespace Rules

open Watching

variable (r : Rules V)

theorem upToOffence_plain {n : Expression V} (h : n.headFault? r.find? = none) (d : Nat)
    (vs : List (Visit (Value V))) :
    upToOffence r (⟨d + 1, n⟩ :: vs) =
      ⟨d + 1, n⟩ :: if r.limit ≤ d then [] else upToOffence r vs := by
  rw [upToOffence_cons, h]
  rfl

mutual

theorem watch_records (d : Nat) : ∀ n : Expression V,
    Records (r.watch n) (r.substitute n) d
      (upToOffence r (n.visits (bindsBundle r.find?) (d + 1)))
  | .constant v => by
    rw [watch, substitute, Node.visits, upToOffence_plain r rfl]
    exact Records.nested r.limit _ (records_pure _ _)
  | .symbol name => by
    rw [watch, substitute, Node.visits, upToOffence_plain r rfl]
    refine Records.nested r.limit _ ?_
    refine (records_ofWalking _ (r.look name)).bind (r.look_yields _ name) ?_
    cases r.find? name <;> exact records_pure _ _
  | .call f as => by
    rw [watch, substitute, Node.visits, upToOffence_cons]
    refine Records.nested r.limit _ ?_
    refine (records_ofWalking _ (r.head f)).bind (r.head_yields _ f) ?_
    exact (watchArguments_records (d + 1) as).map (r.substituteArguments_yields _ as) _
  | .block ss => by
    rw [watch, substitute, Node.visits, upToOffence_plain r rfl]
    refine Records.nested r.limit _ ?_
    exact (watchNodes_records (d + 1) ss).map (r.substituteNodes_yields _ ss) _
  | .ifElse c t none => by
    rw [watch, substitute, Node.visits, upToOffence_plain r rfl, upToOffence_append]
    refine Records.nested r.limit _ ((watch_records (d + 1) c).bind (r.substitute_yields _ c) ?_)
    exact (watch_records (d + 1) t).map (r.substitute_yields _ t) _
  | .ifElse c t (some e) => by
    rw [watch, substitute, Node.visits, upToOffence_plain r rfl, upToOffence_append,
      upToOffence_append]
    refine Records.nested r.limit _ ((watch_records (d + 1) c).bind (r.substitute_yields _ c) ?_)
    refine (watch_records (d + 1) t).bind (r.substitute_yields _ t) ?_
    exact (watch_records (d + 1) e).map (r.substitute_yields _ e) _
  | .whileLoop c b => by
    rw [watch, substitute, Node.visits, upToOffence_plain r rfl, upToOffence_append]
    refine Records.nested r.limit _ ((watch_records (d + 1) c).bind (r.substitute_yields _ c) ?_)
    exact (watch_records (d + 1) b).map (r.substitute_yields _ b) _
  | .repeatLoop b => by
    rw [watch, substitute, Node.visits, upToOffence_plain r rfl]
    exact Records.nested r.limit _ ((watch_records (d + 1) b).map (r.substitute_yields _ b) _)
  | .forLoop x s b => by
    rw [watch, substitute, Node.visits, upToOffence_plain r rfl, upToOffence_append]
    refine Records.nested r.limit _ ((watch_records (d + 1) s).bind (r.substitute_yields _ s) ?_)
    exact (watch_records (d + 1) b).map (r.substitute_yields _ b) _
  | .function fs b => by
    rw [watch, substitute, Node.visits, upToOffence_plain r rfl, upToOffence_append]
    refine Records.nested r.limit _ ?_
    refine (watchFormals_records (d + 1) fs).bind (r.substituteFormals_yields _ fs) ?_
    exact (watch_records (d + 1) b).map (r.substitute_yields _ b) _
  | .assign x v isSuper => by
    rw [watch, substitute, Node.visits, upToOffence_plain r rfl]
    exact Records.nested r.limit _ ((watch_records (d + 1) v).map (r.substitute_yields _ v) _)
  | .binary op l m => by
    rw [watch, substitute, Node.visits, upToOffence_plain r rfl, upToOffence_append]
    refine Records.nested r.limit _ ((watch_records (d + 1) l).bind (r.substitute_yields _ l) ?_)
    exact (watch_records (d + 1) m).map (r.substitute_yields _ m) _
  | .unary op x => by
    rw [watch, substitute, Node.visits, upToOffence_plain r rfl]
    exact Records.nested r.limit _ ((watch_records (d + 1) x).map (r.substitute_yields _ x) _)
  | .index b as exact => by
    rw [watch, substitute, Node.visits, upToOffence_plain r rfl, upToOffence_append]
    refine Records.nested r.limit _ ((watch_records (d + 1) b).bind (r.substitute_yields _ b) ?_)
    exact (watchArguments_records (d + 1) as).map (r.substituteArguments_yields _ as) _
  | .field b x => by
    rw [watch, substitute, Node.visits, upToOffence_plain r rfl]
    exact Records.nested r.limit _ ((watch_records (d + 1) b).map (r.substitute_yields _ b) _)
  | .nextLoop => by
    rw [watch, substitute, Node.visits, upToOffence_plain r rfl]
    exact Records.nested r.limit _ (records_pure _ _)
  | .breakLoop => by
    rw [watch, substitute, Node.visits, upToOffence_plain r rfl]
    exact Records.nested r.limit _ (records_pure _ _)

theorem watchArguments_records (d : Nat) : ∀ as : List (Argument (Expression V)),
    Records (r.watchArguments as) (r.substituteArguments as) d
      (upToOffence r (Node.visitsArguments (bindsBundle r.find?) (d + 1) as))
  | [] => records_pure d []
  | ⟨name, none⟩ :: as =>
    (watchArguments_records d as).map (r.substituteArguments_yields d as) _
  | ⟨name, some n⟩ :: as => by
    rw [watchArguments, substituteArguments, Node.visitsArguments, ← Node.isSome_bundle?]
    refine (records_ofWalking d (r.bundleFor n)).bind (r.bundleFor_yields d n) ?_
    cases n.bundle? r.find? with
    | some entries =>
      exact (watchArguments_records d as).map (r.substituteArguments_yields d as) _
    | none =>
      simp only [Option.isSome_none, Bool.false_eq_true, if_false, upToOffence_append]
      refine (watch_records d n).bind (r.substitute_yields d n) ?_
      exact (watchArguments_records d as).map (r.substituteArguments_yields d as) _

theorem watchNodes_records (d : Nat) : ∀ ns : List (Expression V),
    Records (r.watchNodes ns) (r.substituteNodes ns) d
      (upToOffence r (Node.visitsNodes (bindsBundle r.find?) (d + 1) ns))
  | [] => records_pure d []
  | n :: ns => by
    rw [watchNodes, substituteNodes, Node.visitsNodes, upToOffence_append]
    refine (watch_records d n).bind (r.substitute_yields d n) ?_
    exact (watchNodes_records d ns).map (r.substituteNodes_yields d ns) _

theorem watchFormals_records (d : Nat) : ∀ fs : List (Formal (Expression V)),
    Records (r.watchFormals fs) (r.substituteFormals fs) d
      (upToOffence r (Node.visitsFormals (bindsBundle r.find?) (d + 1) fs))
  | [] => records_pure d []
  | ⟨name, none⟩ :: fs => (watchFormals_records d fs).map (r.substituteFormals_yields d fs) _
  | ⟨name, some n⟩ :: fs => by
    rw [watchFormals, substituteFormals, Node.visitsFormals, upToOffence_append]
    refine (watch_records d n).bind (r.substitute_yields d n) ?_
    exact (watchFormals_records d fs).map (r.substituteFormals_yields d fs) _

end

/-- The counter comes back to where it stood, whatever the outcome. -/
theorem depth_substitute (n : Expression V) (w : Walk) : (r.substitute n w).2.depth = w.depth := by
  obtain ⟨ls, h⟩ := r.substitute_yields w.depth n w.lookups
  exact congrArg (fun out => out.2.depth) h

theorem substitute_fst_congr (n : Expression V) {w w' : Walk} (h : w.depth = w'.depth) :
    (r.substitute n w).1 = (r.substitute n w').1 := by
  obtain ⟨d, ls⟩ := w
  obtain ⟨d', ls'⟩ := w'
  obtain rfl : d = d' := h
  obtain ⟨_, hw⟩ := r.substitute_yields d n ls
  obtain ⟨_, hw'⟩ := r.substitute_yields d n ls'
  rw [hw, hw']

theorem depth_substituteEach (ns : List (Expression V)) (w : Walk) :
    (r.substituteEach ns w).2.depth = w.depth := by
  induction ns generalizing w with
  | nil => rfl
  | cons n ns ih => exact (ih (r.substitute n w).2).trans (r.depth_substitute n w)

theorem substituteEach_fst (ns : List (Expression V)) (w : Walk) :
    (r.substituteEach ns w).1 = ns.map fun n => (r.substitute n w).1 := by
  induction ns generalizing w with
  | nil => rfl
  | cons n ns ih =>
    change (r.substitute n w).1 :: (r.substituteEach ns (r.substitute n w).2).1 = _
    rw [ih, List.map_cons]
    refine congrArg _ (List.map_congr_left fun m _ => ?_)
    exact r.substitute_fst_congr m (r.depth_substitute n w)

end Rules

/-- Expressions that are substituted one after another come out as each does alone, whatever faults
there were before it. The counter is back at its start after every expression and after all of
them; and when it is the turn of a further one, the counter stands at the depth of each node that
the walk comes to, up to the first offence. -/
theorem Substitution.applyEach_as_alone (s : Substitution V) (o : Objects (Value V))
    (ns : List (Expression V)) :
    (s.applyEach o ns).1 = ns.map (fun n => (s.apply o n).1) ∧
      (∀ n w, ((s.rules o).substitute n w).2.depth = w.depth) ∧
      ∀ n, let w := ((s.rules o).substituteEach ns Walk.start).2
        w.depth = 0 ∧ (s.rules o).watch n w =
          ((s.rules o).substitute n w, upToOffence (s.rules o) (s.visits o n)) := by
  refine ⟨(s.rules o).substituteEach_fst ns Walk.start, (s.rules o).depth_substitute, ?_⟩
  intro n w
  have hdepth : w.depth = 0 := (s.rules o).depth_substituteEach ns Walk.start
  have hrecords := (s.rules o).watch_records 0 n w.lookups
  obtain ⟨d, ls⟩ := w
  obtain rfl : d = 0 := hdepth
  exact ⟨rfl, hrecords⟩

-- An expression that is too deep does not take a level away from the next one.
example :
    let deep : Expression := .unary .neg (.unary .neg (.symbol ⟨"x"⟩))
    ((Substitution.mk .nothing 2).applyEach Objects.empty [deep, .unary .not (.symbol ⟨"y"⟩)]).1 =
      [.error (.tooDeep 2), .ok (.unary .not (.symbol ⟨"y"⟩))] := rfl

end Deferred
