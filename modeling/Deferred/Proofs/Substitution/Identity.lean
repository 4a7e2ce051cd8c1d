import Deferred.Proofs.Substitution.Locality
import Deferred.Proofs.Substitution.Occurrences
import Deferred.Proofs.Value.Equality

set_option autoImplicit false

namespace Deferred

variable {V : Kind → Type}

namespace Node

variable {α : Type}

mutual

/-- The number of levels of an expression; constants are not entered. -/
def height : Node α → Nat
  | .constant _ => 1
  | .symbol _ => 1
  | .call _ as => 1 + heightArguments as
  | .block ss => 1 + heightNodes ss
  | .ifElse c t none => 1 + max (height c) (height t)
  | .ifElse c t (some e) => 1 + max (height c) (max (height t) (height e))
  | .whileLoop c b => 1 + max (height c) (height b)
  | .repeatLoop b => 1 + height b
  | .forLoop _ s b => 1 + max (height s) (height b)
  | .function fs b => 1 + max (heightFormals fs) (height b)
  | .assign _ v _ => 1 + height v
  | .binary _ l m => 1 + max (height l) (height m)
  | .unary _ x => 1 + height x
  | .index b as _ => 1 + max (height b) (heightArguments as)
  | .field b _ => 1 + height b
  | .nextLoop => 1
  | .breakLoop => 1

def heightArguments : List (Argument (Node α)) → Nat
  | [] => 0
  | ⟨_, none⟩ :: as => heightArguments as
  | ⟨_, some n⟩ :: as => max (height n) (heightArguments as)

def heightNodes : List (Node α) → Nat
  | [] => 0
  | n :: ns => max (height n) (heightNodes ns)

def heightFormals : List (Formal (Node α)) → Nat
  | [] => 0
  | ⟨_, none⟩ :: fs => heightFormals fs
  | ⟨_, some n⟩ :: fs => max (height n) (heightFormals fs)

end

end Node

/-- No visit is deeper than a limit. -/
def Within {α : Type} (limit : Nat) (vs : List (Visit α)) : Prop := ∀ v ∈ vs, v.depth ≤ limit

section Within

variable {α : Type} {limit : Nat}

theorem within_nil : Within limit ([] : List (Visit α)) := fun _ h => nomatch h

theorem within_cons {d : Nat} {n : Node α} {vs : List (Visit α)} :
    Within limit (⟨d, n⟩ :: vs) ↔ d ≤ limit ∧ Within limit vs :=
  List.forall_mem_cons

theorem within_append {vs ws : List (Visit α)} :
    Within limit (vs ++ ws) ↔ Within limit vs ∧ Within limit ws :=
  List.forall_mem_append

end Within

namespace Node

variable {α : Type} {limit : Nat}

mutual

/-- The deepest visit stands as many levels below the root as the height says. -/
theorem within_visits_iff (d : Nat) : ∀ n : Node α,
    Within limit (n.visits false d) ↔ n.height ≤ limit + 1 - d
  | .constant _ => by
    simp only [visits, height, within_cons, within_nil, and_true]
    omega
  | .symbol _ => by
    simp only [visits, height, within_cons, within_nil, and_true]
    omega
  | .call _ as => by
    rw [visits, height, within_cons, within_visitsArguments_iff _ as]
    omega
  | .block ss => by
    rw [visits, height, within_cons, within_visitsNodes_iff _ ss]
    omega
  | .ifElse c t none => by
    rw [visits, height, within_cons, within_append, within_visits_iff _ c, within_visits_iff _ t]
    omega
  | .ifElse c t (some e) => by
    rw [visits, height, within_cons, within_append, within_append, within_visits_iff _ c,
      within_visits_iff _ t, within_visits_iff _ e]
    omega
  | .whileLoop c b => by
    rw [visits, height, within_cons, within_append, within_visits_iff _ c, within_visits_iff _ b]
    omega
  | .repeatLoop b => by
    rw [visits, height, within_cons, within_visits_iff _ b]
    omega
  | .forLoop _ s b => by
    rw [visits, height, within_cons, within_append, within_visits_iff _ s, within_visits_iff _ b]
    omega
  | .function fs b => by
    rw [visits, height, within_cons, within_append, within_visitsFormals_iff _ fs,
      within_visits_iff _ b]
    omega
  | .assign _ v _ => by
    rw [visits, height, within_cons, within_visits_iff _ v]
    omega
  | .binary _ l m => by
    rw [visits, height, within_cons, within_append, within_visits_iff _ l, within_visits_iff _ m]
    omega
  | .unary _ x => by
    rw [visits, height, within_cons, within_visits_iff _ x]
    omega
  | .index b as _ => by
    rw [visits, height, within_cons, within_append, within_visits_iff _ b,
      within_visitsArguments_iff _ as]
    omega
  | .field b _ => by
    rw [visits, height, within_cons, within_visits_iff _ b]
    omega
  | .nextLoop => by
    simp only [visits, height, within_cons, within_nil, and_true]
    omega
  | .breakLoop => by
    simp only [visits, height, within_cons, within_nil, and_true]
    omega

theorem within_visitsArguments_iff (d : Nat) : ∀ as : List (Argument (Node α)),
    Within limit (visitsArguments false d as) ↔ heightArguments as ≤ limit + 1 - d
  | [] => by simp [visitsArguments, heightArguments, within_nil]
  | ⟨_, none⟩ :: as => within_visitsArguments_iff d as
  | ⟨_, some n⟩ :: as => by
    simp only [visitsArguments, heightArguments, Bool.false_and, Bool.false_eq_true, if_false]
    rw [within_append, within_visits_iff d n, within_visitsArguments_iff d as]
    omega

theorem within_visitsNodes_iff (d : Nat) : ∀ ns : List (Node α),
    Within limit (visitsNodes false d ns) ↔ heightNodes ns ≤ limit + 1 - d
  | [] => by simp [visitsNodes, heightNodes, within_nil]
  | n :: ns => by
    rw [visitsNodes, heightNodes, within_append, within_visits_iff d n,
      within_visitsNodes_iff d ns]
    omega

theorem within_visitsFormals_iff (d : Nat) : ∀ fs : List (Formal (Node α)),
    Within limit (visitsFormals false d fs) ↔ heightFormals fs ≤ limit + 1 - d
  | [] => by simp [visitsFormals, heightFormals, within_nil]
  | ⟨_, none⟩ :: fs => within_visitsFormals_iff d fs
  | ⟨_, some n⟩ :: fs => by
    rw [visitsFormals, heightFormals, within_append, within_visits_iff d n,
      within_visitsFormals_iff d fs]
    omega

end

end Node

namespace Substitution

variable (o : Objects (Value V)) (n : Expression V)

theorem within_of_apply_eq_ok {s : Substitution V} {t : Expression V}
    (h : (s.apply o n).1 = .ok t) : Within s.limit (s.visits o n) := by
  intro v hv
  have ho := ((apply_eq_ok_iff s o n t).1 h).1 v hv
  by_cases hd : s.limit < v.depth
  · simp [Visit.offence?, rules, hd] at ho
  · omega

theorem apply_of_fits {s : Substitution V} (hvisits : s.visits o n = n.visits false 1)
    (hfits : Fits (s.source.find? o) (s.visits o n)) :
    (s.apply o n).1 =
      if n.height ≤ s.limit then .ok (n.graft (s.source.find? o))
      else .error (.tooDeep s.limit) := by
  have hheight : Within s.limit (s.visits o n) ↔ n.height ≤ s.limit := by
    rw [hvisits]
    exact n.within_visits_iff 1
  by_cases h : n.height ≤ s.limit
  · rcases apply_of_ne_tooDeep s o n (apply_ne_tooDeep o n (hheight.2 h)) with ⟨-, he⟩ | ⟨hn, -⟩
    · rw [if_pos h, he]
    · exact absurd hfits hn
  · rw [if_neg h]
    refine Classical.byContradiction fun hne => ?_
    rcases apply_of_ne_tooDeep s o n hne with ⟨-, he⟩ | ⟨hn, -⟩
    · exact h (hheight.1 (within_of_apply_eq_ok o n he))
    · exact hn hfits

theorem apply_nothing (limit : Nat) :
    ((mk .nothing limit).apply o n).1 =
      if n.height ≤ limit then .ok n else .error (.tooDeep limit) := by
  have hunbound : Unbound (Source.nothing.find? o) n.names := fun _ _ => rfl
  have h := apply_of_fits o n (s := mk .nothing limit) rfl (n.fits_of_unbound 1 hunbound)
  rwa [n.graft_of_unbound hunbound] at h

theorem apply_of_unbound {source : Source (Value V)} (h : Unbound (source.find? o) n.names)
    (limit : Nat) :
    ((mk source limit).apply o n).1 =
      if n.height ≤ limit then .ok n else .error (.tooDeep limit) := by
  rw [← apply_nothing o n limit]
  exact apply_congr (fun x hx => h x hx) limit

end Substitution

namespace Node

end Node

end Deferred
