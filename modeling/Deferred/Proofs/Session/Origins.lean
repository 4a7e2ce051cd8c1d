import Deferred.Proofs.Promises
import Deferred.Proofs.Session.SceneStep
import Deferred.Proofs.Value.Parts

set_option autoImplicit false

namespace Deferred

/-- What a promise was made with. -/
structure Origin where
  expression : Expression
  scope : Option EnvironmentId

/-- The handles to promises in a value have the expressions and scopes in a list, by number of the
promise. -/
def Value.TracedTo (origins : List Origin) (v : Value) : Prop :=
  ∀ id n scope, (promise id n scope).PartOf v → origins[id.index]? = some ⟨n, scope⟩

namespace Value.TracedTo

variable {origins : List Origin} {v w : Value}

theorem of_partOf (h : v.TracedTo origins) (hw : w.PartOf v) : w.TracedTo origins :=
  fun id n scope hp => h id n scope (hp.trans hw)

theorem append (h : v.TracedTo origins) (more : List Origin) : v.TracedTo (origins ++ more) := by
  intro id n scope hp
  have horigin := h id n scope hp
  have hlt : id.index < origins.length := (List.getElem?_eq_some_iff.1 horigin).1
  rw [List.getElem?_append_left hlt, horigin]

end Value.TracedTo

/-- The origins of the promises of a scene, in the order in which they were made. -/
structure Scene.TracedTo (s : Scene) (origins : List Origin) : Prop where
  size_eq : s.objects.outcomes.size = origins.length
  registers : ∀ e ∈ s.registers, e.2.TracedTo origins
  bindings : ∀ id, ∀ e ∈ (s.objects.environment id).bindings.entries, e.2.TracedTo origins
  outcomes : ∀ id v, s.objects.outcome? id = some v → v.TracedTo origins

/-- A value is in a register, an environment or a promise of a scene, or part of one that is. -/
inductive Scene.Holds (s : Scene) (w : Value) : Prop
  | register {e : Register × Value} (mem : e ∈ s.registers) (part : w.PartOf e.2)
  | binding {id : EnvironmentId} {e : Symbol × Value}
      (mem : e ∈ (s.objects.environment id).bindings.entries) (part : w.PartOf e.2)
  | outcome {id : PromiseId} {v : Value} (fulfilled : s.objects.outcome? id = some v)
      (part : w.PartOf v)

theorem Scene.TracedTo.of_holds {s : Scene} {origins : List Origin} (h : s.TracedTo origins)
    {w : Value} (hw : s.Holds w) : w.TracedTo origins := by
  cases hw with
  | register mem part => exact (h.registers _ mem).of_partOf part
  | binding mem part => exact (h.bindings _ _ mem).of_partOf part
  | outcome fulfilled part => exact (h.outcomes _ _ fulfilled).of_partOf part

theorem Scene.tracedTo_iff {s : Scene} {origins : List Origin} :
    s.TracedTo origins ↔ s.objects.outcomes.size = origins.length ∧
      ∀ id n scope, s.Holds (.promise id n scope) → origins[id.index]? = some ⟨n, scope⟩ := by
  constructor
  · intro h
    exact ⟨h.size_eq, fun id n scope hw => h.of_holds hw id n scope .self⟩
  · rintro ⟨hsize, h⟩
    exact ⟨hsize, fun e he id n scope hp => h id n scope (.register he hp),
      fun _ e he id n scope hp => h id n scope (.binding he hp),
      fun _ v hv id n scope hp => h id n scope (.outcome hv hp)⟩

theorem Scene.TracedTo.index_lt {s : Scene} {origins : List Origin} (h : s.TracedTo origins)
    {id : PromiseId} {n : Expression} {scope : Option EnvironmentId}
    (hw : s.Holds (.promise id n scope)) : id.index < s.objects.outcomes.size := by
  have horigin := h.of_holds hw id n scope .self
  rw [h.size_eq]
  exact (List.getElem?_eq_some_iff.1 horigin).1

/-- Handles to one promise agree, also if one scene has more promises than the other. -/
theorem Scene.TracedTo.eq_of_holds {s t : Scene} {origins more : List Origin}
    (hs : s.TracedTo origins) (ht : t.TracedTo (origins ++ more)) {id : PromiseId}
    {n n' : Expression} {scope scope' : Option EnvironmentId}
    (h : s.Holds (.promise id n scope)) (h' : t.Holds (.promise id n' scope')) :
    n' = n ∧ scope' = scope := by
  have horigin := ((hs.of_holds h).append more) id n scope .self
  have horigin' := ht.of_holds h' id n' scope' .self
  rw [horigin] at horigin'
  obtain ⟨rfl, rfl⟩ := Origin.mk.inj (Option.some.inj horigin')
  exact ⟨rfl, rfl⟩

theorem Scene.tracedTo_empty : (Scene.empty : Scene).TracedTo [] :=
  ⟨rfl, fun _ h => absurd h List.not_mem_nil, fun _ _ h => absurd h List.not_mem_nil,
    fun _ _ h => absurd h.symm (Option.some_ne_none _)⟩

end Deferred
