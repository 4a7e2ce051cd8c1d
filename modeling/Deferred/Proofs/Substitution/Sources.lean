import Mathlib.Data.List.Basic
import Mathlib.Data.List.Induction
import Deferred.Proofs.Substitution.Locality

set_option autoImplicit false

namespace Deferred

variable {ν : Type} {V : Kind → Type}

/-- The value that a name was given last in a history of definitions, if it was given any. -/
def lastGiven? (history : List (Symbol × ν)) (name : Symbol) : Option ν :=
  (history.reverse.find? (·.1 = name)).map Prod.snd

theorem lastGiven?_append_singleton (history : List (Symbol × ν)) (p : Symbol × ν)
    (name : Symbol) :
    lastGiven? (history ++ [p]) name =
      if p.1 = name then some p.2 else lastGiven? history name := by
  rw [lastGiven?, List.reverse_append, List.reverse_singleton, List.singleton_append,
    List.find?_cons]
  by_cases h : p.1 = name <;> simp [h, lastGiven?]

theorem lastGiven?_eq_some_iff {history : List (Symbol × ν)} {name : Symbol} {v : ν} :
    lastGiven? history name = some v ↔
      ∃ before after, history = before ++ (name, v) :: after ∧ ∀ p ∈ after, p.1 ≠ name := by
  rw [lastGiven?, Option.map_eq_some_iff]
  constructor
  · rintro ⟨⟨x, w⟩, hfind, rfl⟩
    obtain ⟨hx, after, before, heq, hafter⟩ := List.find?_eq_some_iff_append.mp hfind
    obtain rfl : x = name := by simpa using hx
    refine ⟨before.reverse, after.reverse, ?_, fun p hp => ?_⟩
    · rw [← List.reverse_reverse history, heq]
      simp
    · simpa using hafter p (List.mem_reverse.mp hp)
  · rintro ⟨before, after, rfl, hafter⟩
    refine ⟨(name, v), List.find?_eq_some_iff_append.mpr
      ⟨by simp, after.reverse, before.reverse, by simp, fun p hp => ?_⟩, rfl⟩
    simpa using hafter p (List.mem_reverse.mp hp)

namespace Bindings

theorem ofList_append_singleton (history : List (Symbol × ν)) (p : Symbol × ν) :
    ofList (history ++ [p]) = (ofList history).insert p.1 p.2 := by
  rw [ofList, List.foldl_append]
  rfl

theorem find?_ofList (history : List (Symbol × ν)) (name : Symbol) :
    (ofList history).find? name = lastGiven? history name := by
  induction history using List.reverseRecOn with
  | nil => rfl
  | append_singleton history p ih =>
    rw [ofList_append_singleton, find?_insert, lastGiven?_append_singleton, ih]

theorem mem_names_ofList {history : List (Symbol × ν)} {name : Symbol} :
    name ∈ (ofList history).names ↔ name ∈ history.map Prod.fst := by
  induction history using List.reverseRecOn with
  | nil => rfl
  | append_singleton history p ih =>
    rw [ofList_append_singleton, names_insert, List.map_append, List.mem_append, ← ih,
      List.map_singleton, List.mem_singleton]
    split
    case isTrue hp => exact ⟨Or.inl, fun h => h.elim id fun h => h ▸ hp⟩
    case isFalse => rw [List.mem_append, List.mem_singleton]

/-- Defining a name again does not move it: the names stand as they were first defined. -/
theorem pairwise_names_ofList (history : List (Symbol × ν)) :
    (ofList history).names.Pairwise fun x y =>
      (history.map Prod.fst).idxOf x < (history.map Prod.fst).idxOf y := by
  induction history using List.reverseRecOn with
  | nil => exact List.Pairwise.nil
  | append_singleton history p ih =>
    -- A further definition does not change where a name stood first.
    have hfirst : ∀ x ∈ (ofList history).names,
        ((history ++ [p]).map Prod.fst).idxOf x = (history.map Prod.fst).idxOf x := by
      intro x hx
      rw [List.map_append]
      exact List.idxOf_append_of_mem (mem_names_ofList.mp hx)
    have hold : (ofList history).names.Pairwise fun x y =>
        ((history ++ [p]).map Prod.fst).idxOf x < ((history ++ [p]).map Prod.fst).idxOf y := by
      refine ih.imp_of_mem fun hx hy hxy => ?_
      rwa [hfirst _ hx, hfirst _ hy]
    rw [ofList_append_singleton, names_insert]
    split
    case isTrue => exact hold
    case isFalse hp =>
      refine List.pairwise_append.mpr ⟨hold, List.pairwise_singleton _ _, fun x hx y hy => ?_⟩
      obtain rfl := List.mem_singleton.mp hy
      have hnew : p.1 ∉ history.map Prod.fst := fun h => hp (mem_names_ofList.mpr h)
      have hlt := List.idxOf_lt_length_of_mem (mem_names_ofList.mp hx)
      rw [hfirst x hx, List.map_append, List.idxOf_append_of_notMem hnew]
      omega

end Bindings

namespace Objects

def defineEach (o : Objects ν) (id : EnvironmentId) (history : List (Symbol × ν)) : Objects ν :=
  history.foldl (fun o p => o.define id p.1 p.2) o

theorem size_environments_defineEach (o : Objects ν) (id : EnvironmentId)
    (history : List (Symbol × ν)) :
    (o.defineEach id history).environments.size = o.environments.size := by
  induction history generalizing o with
  | nil => rfl
  | cons p history ih => exact (ih (o.define id p.1 p.2)).trans Array.size_modify

theorem environment_defineEach_new (o : Objects ν) (standing : Standing EnvironmentId)
    (history : List (Symbol × ν)) :
    ((o.newEnvironment standing).2.defineEach (o.newEnvironment standing).1 history).environment
      (o.newEnvironment standing).1 = ⟨Bindings.ofList history, standing⟩ := by
  induction history using List.reverseRecOn with
  | nil =>
    have hnew : (o.newEnvironment standing).1.index = o.environments.size := rfl
    change (o.newEnvironment standing).2.environment _ = _
    rw [environment_newEnvironment, if_pos hnew]
    rfl
  | append_singleton history p ih =>
    have hsize : (o.newEnvironment standing).1.index <
        ((o.newEnvironment standing).2.defineEach (o.newEnvironment standing).1
          history).environments.size := by
      rw [size_environments_defineEach]
      simp [newEnvironment]
    rw [Bindings.ofList_append_singleton, defineEach, List.foldl_append]
    change ((defineEach _ _ history).define _ p.1 p.2).environment _ = _
    rw [environment_define, if_pos ⟨rfl, hsize⟩, ih]

end Objects

/-- The label of an item with its value, if it has one. -/
def Entry.pair? (e : Entry ν) : Option (Symbol × ν) := e.label.map (·, e.value)

namespace Listing

theorem lookup?_eq_position? (items : Listing ν) (name : Symbol) :
    items.lookup? name = (items.position? name).bind (items.values[·]?) := by
  cases items with
  | plain vs => rfl
  | labelled es =>
    simp only [lookup?, position?, labels?, values, Option.bind_some, List.findIdx?_map]
    induction es with
    | nil => rfl
    | cons e es ih =>
      rw [List.find?_cons, List.findIdx?_cons]
      by_cases h : e.label = some name
      · simp [h]
      · simpa [h, Option.bind_map, Function.comp_def] using ih

theorem lookup?_labelled (items : List (Entry ν)) (name : Symbol) :
    (labelled items).lookup? name = lastGiven? (items.filterMap Entry.pair?).reverse name := by
  rw [lastGiven?, List.reverse_reverse]
  induction items with
  | nil => rfl
  | cons e items ih =>
    obtain ⟨label, v⟩ := e
    cases label with
    | none => simpa [lookup?, Entry.pair?] using ih
    | some x =>
      by_cases h : x = name
      · simp [lookup?, Entry.pair?, h]
      · simpa [lookup?, Entry.pair?, h] using ih

end Listing

/-- A frame bound in the order of a history, a new environment defined in that order and a list with
the reversed history among its items bind every name to what it was given last, so nothing that is
substituted can tell them apart. The environment may be global or lie in others, and lists each of
its names once, in the order of first definition. -/
theorem Substitution.stores_agree {history : List (Symbol × Value V)}
    {items : List (Entry (Value V))} (hitems : items.filterMap Entry.pair? = history.reverse)
    (function : Option Symbol) (o : Objects (Value V)) (standing : Standing EnvironmentId) :
    let id := (o.newEnvironment standing).1
    let made := (o.newEnvironment standing).2.defineEach id history
    let frame : Source (Value V) := .frame ⟨function, Bindings.ofList history⟩
    let environment : Source (Value V) := .environment id
    let list : Source (Value V) := .list (.labelled items)
    (∀ x v, lastGiven? history x = some v ↔
        ∃ before after, history = before ++ (x, v) :: after ∧ ∀ p ∈ after, p.1 ≠ x) ∧
      (∀ x, frame.find? made x = lastGiven? history x ∧
        environment.find? made x = lastGiven? history x ∧
        list.find? made x = lastGiven? history x ∧
        ((Listing.labelled items).position? x).bind ((Listing.labelled items).values[·]?) =
          lastGiven? history x) ∧
      (∀ (n : Expression V) (limit : Nat),
        ((mk environment limit).apply made n).1 = ((mk frame limit).apply made n).1 ∧
          ((mk list limit).apply made n).1 = ((mk frame limit).apply made n).1) ∧
      (made.environment id).standing = standing ∧
      (made.environment id).bindings.names.Nodup ∧
      (∀ x, x ∈ (made.environment id).bindings.names ↔ x ∈ history.map Prod.fst) ∧
      (made.environment id).bindings.names.Pairwise fun x y =>
        (history.map Prod.fst).idxOf x < (history.map Prod.fst).idxOf y := by
  intro id made frame environment list
  have hmade : made.environment id = ⟨Bindings.ofList history, standing⟩ :=
    o.environment_defineEach_new standing history
  have hframe : ∀ x, frame.find? made x = lastGiven? history x := Bindings.find?_ofList history
  have henvironment : ∀ x, environment.find? made x = lastGiven? history x := by
    intro x
    change (made.environment id).bindings.find? x = _
    rw [hmade]
    exact Bindings.find?_ofList history x
  have hlist : ∀ x, list.find? made x = lastGiven? history x := by
    intro x
    change (Listing.labelled items).lookup? x = _
    rw [Listing.lookup?_labelled, hitems, List.reverse_reverse]
  refine ⟨fun x v => lastGiven?_eq_some_iff, fun x => ?_, fun n limit => ⟨?_, ?_⟩, ?_, ?_, ?_, ?_⟩
  · refine ⟨hframe x, henvironment x, hlist x, ?_⟩
    rw [← Listing.lookup?_eq_position?]
    exact hlist x
  · exact apply_congr (fun x _ => (henvironment x).trans (hframe x).symm) limit
  · exact apply_congr (fun x _ => (hlist x).trans (hframe x).symm) limit
  · rw [hmade]
  · exact (made.environment id).bindings.nodup
  · rw [hmade]
    exact fun x => Bindings.mem_names_ofList
  · rw [hmade]
    exact Bindings.pairwise_names_ofList history

/-- The name `x` is given a value twice, the environment lies in a global one, and the list has items
without a label at both ends. -/
theorem Substitution.stores_agree_given_twice :
    let one : Value := .symbol ⟨"one"⟩
    let two : Value := .symbol ⟨"two"⟩
    let history : List (Symbol × Value) := [(⟨"x"⟩, one), (⟨"y"⟩, .null), (⟨"x"⟩, two)]
    let items : List (Entry Value) :=
      [⟨none, one⟩, ⟨some ⟨"x"⟩, two⟩, ⟨some ⟨"y"⟩, .null⟩, ⟨some ⟨"x"⟩, one⟩, ⟨none, two⟩]
    let o : Objects := (Objects.empty.newEnvironment .global).2
    let made := (o.newEnvironment (.ordinary (some ⟨0⟩))).2.defineEach ⟨1⟩ history
    let frame : Source := .frame ⟨some ⟨"f"⟩, Bindings.ofList history⟩
    let list : Source := .list (.labelled items)
    items.filterMap Entry.pair? = history.reverse ∧
      (made.environment ⟨1⟩).bindings.names = [⟨"x"⟩, ⟨"y"⟩] ∧
      ((mk (.environment ⟨1⟩) 1).apply made (.symbol ⟨"x"⟩)).1 =
        ((mk frame 1).apply made (.symbol ⟨"x"⟩)).1 ∧
      ((mk list 1).apply made (.symbol ⟨"x"⟩)).1 = ((mk frame 1).apply made (.symbol ⟨"x"⟩)).1 ∧
      ((mk frame 1).apply made (.symbol ⟨"x"⟩)).1 = .ok (.constant two) := by
  intro one two history items o made frame list
  have hitems : items.filterMap Entry.pair? = history.reverse := rfl
  obtain ⟨-, -, houtcome, -⟩ :=
    stores_agree hitems (some ⟨"f"⟩) o (.ordinary (some ⟨0⟩))
  obtain ⟨henvironment, hlist⟩ := houtcome (.symbol ⟨"x"⟩) 1
  exact ⟨hitems, rfl, henvironment, hlist, rfl⟩

end Deferred
