import Deferred.Proofs.Objects
import Deferred.Proofs.Value.Text

set_option autoImplicit false

namespace Deferred

namespace Objects

variable {ν : Type}

/-- The objects after values were offered to promises one after another, taken or not. -/
def offers (o : Objects ν) : List (PromiseId × ν) → Objects ν
  | [] => o
  | (id, v) :: rest => ((o.fulfil id v).getD o).offers rest

/-- Objects that differ in no more than what promises were fulfilled with. -/
structure SameButOutcomes (o o' : Objects ν) : Prop where
  environments_eq : o'.environments = o.environments
  size_eq : o'.outcomes.size = o.outcomes.size
  closures_eq : o'.closures = o.closures

namespace SameButOutcomes

variable {o o' o'' : Objects ν}

theorem refl (o : Objects ν) : SameButOutcomes o o := ⟨rfl, rfl, rfl⟩

theorem trans (h : SameButOutcomes o o') (h' : SameButOutcomes o' o'') : SameButOutcomes o o'' :=
  ⟨h'.environments_eq.trans h.environments_eq, h'.size_eq.trans h.size_eq,
    h'.closures_eq.trans h.closures_eq⟩

theorem environment_eq (h : SameButOutcomes o o') (id : EnvironmentId) :
    o'.environment id = o.environment id := by
  rw [environment, environment, h.environments_eq]

theorem find?_eq (h : SameButOutcomes o o') (source : Source ν) :
    source.find? o' = source.find? o := by
  cases source with
  | environment id =>
    funext name
    rw [Source.find?, Source.find?, h.environment_eq]
  | _ => rfl

end SameButOutcomes

variable {o o' : Objects ν} {id : PromiseId} {v : ν}

theorem fulfil_eq_none_iff : o.fulfil id v = none ↔ (o.outcome? id).isSome := by
  unfold fulfil
  cases o.outcome? id <;> simp

theorem outcome?_eq_none_of_fulfil (h : o.fulfil id v = some o') : o.outcome? id = none := by
  have hopen := mt fulfil_eq_none_iff.2 (h ▸ Option.some_ne_none o')
  exact Option.not_isSome_iff_eq_none.1 hopen

theorem outcome?_fulfil_of_some {other : PromiseId} {u : ν} (h : o.fulfil other v = some o')
    (hid : o.outcome? id = some u) : o'.outcome? id = some u := by
  rw [outcome?_fulfil h]
  split
  case isTrue heq =>
    obtain rfl : other = id := congrArg PromiseId.mk heq.1
    rw [outcome?_eq_none_of_fulfil h] at hid
    exact absurd hid (Option.some_ne_none u).symm
  case isFalse => exact hid

theorem sameButOutcomes_of_fulfil (h : o.fulfil id v = some o') : SameButOutcomes o o' := by
  cases hid : o.outcome? id with
  | some u => simp [fulfil, hid] at h
  | none =>
    rw [fulfil_of_none hid] at h
    obtain rfl := Option.some.inj h
    exact ⟨rfl, Array.size_setIfInBounds, rfl⟩

theorem sameButOutcomes_offers (o : Objects ν) (calls : List (PromiseId × ν)) :
    SameButOutcomes o (o.offers calls) := by
  induction calls generalizing o with
  | nil => exact .refl o
  | cons c rest ih =>
    obtain ⟨id, v⟩ := c
    refine SameButOutcomes.trans ?_ (ih _)
    cases h : o.fulfil id v with
    | none => exact .refl o
    | some o' => exact sameButOutcomes_of_fulfil h

/-- A promise that was made holds what it held or else the first value that it was offered. -/
theorem outcome?_offers (hid : id.index < o.outcomes.size) (calls : List (PromiseId × ν)) :
    (o.offers calls).outcome? id = (o.outcome? id).or (calls.lookup id) := by
  induction calls generalizing o with
  | nil => rw [offers, List.lookup_nil, Option.or_none]
  | cons c rest ih =>
    obtain ⟨other, v⟩ := c
    rw [offers, List.lookup_cons]
    cases h : o.fulfil other v with
    | none =>
      rw [Option.getD_none, ih hid]
      have hheld := fulfil_eq_none_iff.1 h
      by_cases heq : id = other
      · obtain ⟨u, hu⟩ := Option.isSome_iff_exists.1 hheld
        rw [heq, hu, Option.some_or, Option.some_or]
      · rw [beq_eq_false_iff_ne.2 heq]
    | some o' =>
      have hsize : id.index < o'.outcomes.size :=
        (sameButOutcomes_of_fulfil h).size_eq.symm ▸ hid
      rw [Option.getD_some, ih hsize, outcome?_fulfil h]
      by_cases heq : id = other
      · subst heq
        simp [hid, outcome?_eq_none_of_fulfil h]
      · have hindex : other.index ≠ id.index := fun hi =>
          heq (congrArg PromiseId.mk hi).symm
        rw [if_neg fun hi => hindex hi.1, beq_eq_false_iff_ne.2 heq]

end Objects

variable {V : Kind → Type}

/-- What promises were fulfilled with does not matter to a substitution. -/
theorem Substitution.apply_of_sameButOutcomes {o o' : Objects (Value V)}
    (h : o.SameButOutcomes o') (s : Substitution V) (n : Expression V) :
    s.apply o' n = s.apply o n := by
  have hrules : s.rules o' = s.rules o := by rw [rules, rules, h.find?_eq]
  rw [apply, apply, hrules]

theorem Objects.SameButOutcomes.resembles {o o' : Objects} (h : o.SameButOutcomes o') (st : Store) :
    Heap.Resembles ⟨o, st⟩ ⟨o', st⟩ :=
  ⟨rfl, fun id => congrArg Environment.isGlobal (h.environment_eq id)⟩

end Deferred
