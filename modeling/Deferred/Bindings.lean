import Deferred.Syntax.Node

/-!
# Ordered bindings

Environments keep their names in an index map, which comes from outside the library. It is
documented that a new name comes last there and that inserting a name again replaces its value and
keeps its place. `find?_insert` and `names_insert` say this, and no proof uses more of `insert`.
-/
set_option autoImplicit false

namespace Deferred

structure Bindings (ν : Type) where
  entries : List (Symbol × ν)
  nodup : (entries.map Prod.fst).Nodup

namespace Bindings

variable {ν : Type}

def empty : Bindings ν := ⟨[], List.nodup_nil⟩

def names (b : Bindings ν) : List Symbol := b.entries.map Prod.fst

def find? (b : Bindings ν) (name : Symbol) : Option ν :=
  (b.entries.find? (·.1 = name)).map Prod.snd

def insertEntry (name : Symbol) (value : ν) : List (Symbol × ν) → List (Symbol × ν)
  | [] => [(name, value)]
  | e :: es => if e.1 = name then (name, value) :: es else e :: insertEntry name value es

theorem names_insertEntry (name : Symbol) (value : ν) (es : List (Symbol × ν)) :
    (insertEntry name value es).map Prod.fst =
      if name ∈ es.map Prod.fst then es.map Prod.fst else es.map Prod.fst ++ [name] := by
  induction es with
  | nil => simp [insertEntry]
  | cons e es ih =>
    by_cases h : e.1 = name
    · simp [insertEntry, h]
    · have h' : ¬ name = e.1 := fun h'' => h h''.symm
      by_cases hm : name ∈ es.map Prod.fst <;> simp_all [insertEntry]

theorem nodup_insertEntry (name : Symbol) (value : ν) {es : List (Symbol × ν)}
    (h : (es.map Prod.fst).Nodup) : ((insertEntry name value es).map Prod.fst).Nodup := by
  rw [names_insertEntry]
  split
  · exact h
  · next hm =>
    rw [List.nodup_append]
    exact ⟨h, by simp, fun a ha b hb => by
      rw [List.mem_singleton.1 hb]; exact fun hab => hm (hab ▸ ha)⟩

def insert (b : Bindings ν) (name : Symbol) (value : ν) : Bindings ν :=
  ⟨insertEntry name value b.entries, nodup_insertEntry name value b.nodup⟩

def ofList (pairs : List (Symbol × ν)) : Bindings ν :=
  pairs.foldl (fun b p => b.insert p.1 p.2) empty

theorem find?_insertEntry (name other : Symbol) (value : ν) (es : List (Symbol × ν)) :
    ((insertEntry name value es).find? (·.1 = other)).map Prod.snd =
      if name = other then some value else (es.find? (·.1 = other)).map Prod.snd := by
  induction es with
  | nil => by_cases h : name = other <;> simp [insertEntry, h]
  | cons e es ih =>
    by_cases he : e.1 = name
    · by_cases h : name = other <;> simp [insertEntry, he, h]
    · by_cases ho : e.1 = other
      · have hn : ¬ name = other := fun h => he (ho.trans h.symm)
        have hn' : ¬ other = name := fun h => hn h.symm
        simp [insertEntry, ho, hn, hn']
      · simpa [insertEntry, he, ho] using ih

theorem find?_insert (b : Bindings ν) (name other : Symbol) (value : ν) :
    (b.insert name value).find? other = if name = other then some value else b.find? other :=
  find?_insertEntry name other value b.entries

theorem names_insert (b : Bindings ν) (name : Symbol) (value : ν) :
    (b.insert name value).names = if name ∈ b.names then b.names else b.names ++ [name] :=
  names_insertEntry name value b.entries

theorem find?_of_mem {es : List (Symbol × ν)} (h : (es.map Prod.fst).Nodup) {e : Symbol × ν}
    (he : e ∈ es) : es.find? (·.1 = e.1) = some e := by
  induction es with
  | nil => cases he
  | cons d es ih =>
    obtain ⟨hd, hes⟩ := List.nodup_cons.1 h
    rcases List.mem_cons.1 he with rfl | he
    · simp
    · have hne : d.1 ≠ e.1 := fun hde => hd (hde ▸ List.mem_map_of_mem he)
      rw [List.find?_cons_of_neg (by simpa using hne), ih hes he]

theorem mem_entries_iff {b : Bindings ν} {e : Symbol × ν} :
    e ∈ b.entries ↔ b.find? e.1 = some e.2 := by
  refine ⟨fun h => by rw [find?, find?_of_mem b.nodup h, Option.map_some], fun h => ?_⟩
  obtain ⟨d, hd, hde⟩ := Option.map_eq_some_iff.1 h
  have hname : d.1 = e.1 := by simpa using List.find?_some hd
  rw [← Prod.ext hname hde]
  exact List.mem_of_find?_eq_some hd

theorem entries_eq (b : Bindings ν) :
    b.entries = b.names.filterMap fun name => (b.find? name).map (name, ·) := by
  have hkept : ∀ es : List (Symbol × ν), (∀ e ∈ es, e ∈ b.entries) →
      es = (es.map Prod.fst).filterMap fun name => (b.find? name).map (name, ·) := by
    intro es hes
    induction es with
    | nil => rfl
    | cons e es ih =>
      rw [List.forall_mem_cons] at hes
      rw [List.map_cons, List.filterMap_cons, mem_entries_iff.1 hes.1, Option.map_some, ← ih hes.2]
  exact hkept b.entries fun _ => id

/-- Bindings are their names in order and what these are bound to. -/
theorem ext_find? {b c : Bindings ν} (hnames : b.names = c.names)
    (hfind : ∀ name, b.find? name = c.find? name) : b = c := by
  have hentries : b.entries = c.entries := by
    rw [entries_eq b, entries_eq c, hnames, funext hfind]
  cases b
  cases c
  cases hentries
  rfl

end Bindings

end Deferred
