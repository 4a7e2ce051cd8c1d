import Mathlib.Data.List.Induction
import Mathlib.Data.List.Nodup
import Mathlib.Data.List.Perm.Basic
import Deferred.Builtin.Signature

/-!
# Who supplies which parameter

`Signature.supplied?` says for each parameter by itself what the arguments supply for it,
`Signature.Admits` when they fit the parameters, and `Signature.Rejects` which fault comes first
when they do not. Arguments are either admitted or rejected, and what is supplied by arguments that
are admitted is each of their values, once.
-/
set_option autoImplicit false

namespace Deferred

namespace Signature

def labels (args : List (Argument Expression)) : List Symbol := args.filterMap (·.name)

def unlabelled (args : List (Argument Expression)) : List (Argument Expression) :=
  args.filter (·.name.isNone)

section Specification

variable (s : Signature) (args : List (Argument Expression))

/-- The parameters that no label names, in order. -/
def free : List String := s.params.filter fun p => ⟨p⟩ ∉ labels args

/-- What the arguments supply for a parameter: the value of the argument with its label or, if it is
the `k`-th of those without one, the value of the `k`-th argument without a label. A hole supplies
nothing. -/
def supplied? (param : String) : Option Expression :=
  match args.find? (·.name = some ⟨param⟩) with
  | some a => a.value
  | none => ((unlabelled args)[(s.free args).idxOf param]?).bind (·.value)

/-- Each label names a parameter and none comes twice. -/
structure Labelled : Prop where
  known : ∀ name ∈ labels args, name.name ∈ s.params
  distinct : (labels args).Nodup

def Satisfied (param : String) : Prop := param ∈ s.params ∧ (s.supplied? args param).isSome

/-- The arguments fit the parameters, and what is required is supplied. -/
structure Admits : Prop where
  labelled : s.Labelled args
  room : (unlabelled args).length ≤ (s.free args).length
  required : ∀ p ∈ s.required, s.Satisfied args p

/-- The fault of the first check that the arguments do not pass. -/
inductive Rejects : Fault → Prop
  | unknown {before after : List (Argument Expression)} {a : Argument Expression} {name : Symbol}
      (split : args = before ++ a :: after) (fine : s.Labelled before)
      (label : a.name = some name) (unknown : name.name ∉ s.params) :
      Rejects (.unusedArgument a)
  | repeated {before after : List (Argument Expression)} {a : Argument Expression} {name : Symbol}
      (split : args = before ++ a :: after) (fine : s.Labelled before)
      (label : a.name = some name) (again : name ∈ labels before) :
      Rejects (.duplicateArgument name)
  | surplus {a : Argument Expression} (fine : s.Labelled args)
      (first : (unlabelled args)[(s.free args).length]? = some a) :
      Rejects (.unusedArgument a)
  | notFormal {before after : List String} {p : String} (fine : s.Labelled args)
      (room : (unlabelled args).length ≤ (s.free args).length)
      (split : s.required = before ++ p :: after) (satisfied : ∀ q ∈ before, s.Satisfied args q)
      (unknown : p ∉ s.params) :
      Rejects (.requiredNotFormal s.name p)
  | missing {before after : List String} {p : String} (fine : s.Labelled args)
      (room : (unlabelled args).length ≤ (s.free args).length)
      (split : s.required = before ++ p :: after) (satisfied : ∀ q ∈ before, s.Satisfied args q)
      (known : p ∈ s.params) (empty : s.supplied? args p = none) :
      Rejects (.missingArgument p)

end Specification

theorem labels_append (as bs : List (Argument Expression)) :
    labels (as ++ bs) = labels as ++ labels bs :=
  List.filterMap_append

theorem labels_singleton_of_none {a : Argument Expression} (h : a.name = none) :
    labels [a] = [] := by
  simp [labels, h]

theorem labels_singleton_of_some {a : Argument Expression} {name : Symbol}
    (h : a.name = some name) : labels [a] = [name] := by
  simp [labels, h]

theorem mem_labels_iff {args : List (Argument Expression)} {name : Symbol} :
    name ∈ labels args ↔ ∃ a ∈ args, a.name = some name :=
  List.mem_filterMap

variable {s : Signature} {args : List (Argument Expression)}

theorem labelled_nil : s.Labelled [] := ⟨by simp [labels], by simp [labels]⟩

theorem Labelled.append_singleton_of_none (h : s.Labelled args) {a : Argument Expression}
    (ha : a.name = none) : s.Labelled (args ++ [a]) := by
  have hlabels : labels (args ++ [a]) = labels args := by
    rw [labels_append, labels_singleton_of_none ha, List.append_nil]
  exact ⟨hlabels ▸ h.known, hlabels ▸ h.distinct⟩

theorem Labelled.append_singleton_of_some (h : s.Labelled args) {a : Argument Expression}
    {name : Symbol} (ha : a.name = some name) (hknown : name.name ∈ s.params)
    (hnew : name ∉ labels args) : s.Labelled (args ++ [a]) := by
  have hlabels : labels (args ++ [a]) = labels args ++ [name] := by
    rw [labels_append, labels_singleton_of_some ha]
  refine ⟨fun x hx => ?_, ?_⟩
  · rw [hlabels, List.mem_append, List.mem_singleton] at hx
    rcases hx with hx | rfl
    · exact h.known x hx
    · exact hknown
  · rw [hlabels, List.nodup_append]
    refine ⟨h.distinct, List.nodup_singleton name, fun x hx y hy hxy => hnew ?_⟩
    rw [← List.mem_singleton.1 hy, ← hxy]
    exact hx

/-- Labels that are not fine have a leftmost one that is unknown or comes again. -/
theorem labelled_or_exists_offence (s : Signature) (args : List (Argument Expression)) :
    s.Labelled args ∨ ∃ before a after name, args = before ++ a :: after ∧ s.Labelled before ∧
      a.name = some name ∧ (name.name ∉ s.params ∨ name ∈ labels before) := by
  induction args using List.reverseRecOn with
  | nil => exact Or.inl labelled_nil
  | append_singleton args a ih =>
    rcases ih with hfine | ⟨before, b, after, name, rfl, hbefore, hb, hoffence⟩
    · cases ha : a.name with
      | none => exact Or.inl (hfine.append_singleton_of_none ha)
      | some name =>
        by_cases hoffence : name.name ∉ s.params ∨ name ∈ labels args
        · exact Or.inr ⟨args, a, [], name, rfl, hfine, ha, hoffence⟩
        · obtain ⟨hknown, hnew⟩ := not_or.1 hoffence
          exact Or.inl (hfine.append_singleton_of_some ha (not_not.1 hknown) hnew)
    · refine Or.inr ⟨before, b, after ++ [a], name, ?_, hbefore, hb, hoffence⟩
      rw [List.append_assoc, List.cons_append]

theorem exists_first_of_not_forall {α : Type} {P : α → Prop} {xs : List α}
    (h : ¬ ∀ x ∈ xs, P x) :
    ∃ before x after, xs = before ++ x :: after ∧ (∀ y ∈ before, P y) ∧ ¬ P x := by
  induction xs with
  | nil => exact absurd (fun x hx => absurd hx List.not_mem_nil) h
  | cons x xs ih =>
    by_cases hx : P x
    · have hxs : ¬ ∀ y ∈ xs, P y := fun hxs => h (List.forall_mem_cons.2 ⟨hx, hxs⟩)
      obtain ⟨before, y, after, rfl, hbefore, hy⟩ := ih hxs
      exact ⟨x :: before, y, after, rfl, List.forall_mem_cons.2 ⟨hx, hbefore⟩, hy⟩
    · exact ⟨[], x, xs, rfl, by simp, hx⟩

theorem admits_or_exists_rejects (s : Signature) (args : List (Argument Expression)) :
    s.Admits args ∨ ∃ e, s.Rejects args e := by
  rcases labelled_or_exists_offence s args with hfine | ⟨_, a, _, name, hsplit, hbefore, ha, ho⟩
  · by_cases hroom : (unlabelled args).length ≤ (s.free args).length
    · by_cases hrequired : ∀ p ∈ s.required, s.Satisfied args p
      · exact Or.inl ⟨hfine, hroom, hrequired⟩
      · obtain ⟨before, p, after, hsplit, hbefore, hp⟩ := exists_first_of_not_forall hrequired
        by_cases hknown : p ∈ s.params
        · have hempty : s.supplied? args p = none := by
            simpa [Satisfied, hknown] using hp
          exact Or.inr ⟨_, .missing hfine hroom hsplit hbefore hknown hempty⟩
        · exact Or.inr ⟨_, .notFormal hfine hroom hsplit hbefore hknown⟩
    · have hlt : (s.free args).length < (unlabelled args).length := by omega
      exact Or.inr ⟨_, .surplus hfine (List.getElem?_eq_getElem hlt)⟩
  · rcases ho with hunknown | hagain
    · exact Or.inr ⟨_, .unknown hsplit hbefore ha hunknown⟩
    · exact Or.inr ⟨_, .repeated hsplit hbefore ha hagain⟩

theorem eq_of_label {a b : Argument Expression} {name : Symbol} (h : (labels args).Nodup)
    (ha : a ∈ args) (hb : b ∈ args) (han : a.name = some name) (hbn : b.name = some name) :
    a = b := by
  induction args with
  | nil => exact absurd ha List.not_mem_nil
  | cons c cs ih =>
    have hlabels : labels (c :: cs) = labels [c] ++ labels cs := labels_append [c] cs
    rw [hlabels, List.nodup_append] at h
    obtain ⟨-, hcs, hapart⟩ := h
    -- If one of them is the first argument, the other cannot stand behind it.
    have hhead : ∀ d ∈ cs, d.name = some name → c.name ≠ some name := by
      intro d hd hdn hcn
      refine hapart name ?_ name (mem_labels_iff.2 ⟨d, hd, hdn⟩) rfl
      rw [labels_singleton_of_some hcn]
      exact List.mem_cons_self
    rcases List.mem_cons.1 ha with hac | hacs <;> rcases List.mem_cons.1 hb with hbc | hbcs
    · rw [hac, hbc]
    · exact absurd (hac ▸ han) (hhead b hbcs hbn)
    · exact absurd (hbc ▸ hbn) (hhead a hacs han)
    · exact ih hcs hacs hbcs

theorem supplied?_of_label (h : s.Labelled args) {a : Argument Expression} (ha : a ∈ args)
    {name : Symbol} (hname : a.name = some name) : s.supplied? args name.name = a.value := by
  have hfind : args.find? (·.name = some ⟨name.name⟩) = some a := by
    cases hf : args.find? (·.name = some ⟨name.name⟩) with
    | none => exact absurd hname (by simpa using List.find?_eq_none.1 hf a ha)
    | some b =>
      have hb : b.name = some name := by simpa using List.find?_some hf
      rw [eq_of_label h.distinct ha (List.mem_of_find?_eq_some hf) hname hb]
  simp only [supplied?, hfind]

theorem supplied?_of_free (hs : s.params.Nodup) {p : String} {k : Nat}
    (hk : (s.free args)[k]? = some p) :
    s.supplied? args p = ((unlabelled args)[k]?).bind (·.value) := by
  have hp : ⟨p⟩ ∉ labels args := by
    simpa using (List.mem_filter.1 (List.mem_of_getElem? hk)).2
  have hfind : args.find? (·.name = some ⟨p⟩) = none := by
    refine List.find?_eq_none.2 fun a ha => ?_
    simpa using fun hname => hp (mem_labels_iff.2 ⟨a, ha, hname⟩)
  obtain ⟨hlt, hget⟩ := List.getElem?_eq_some_iff.1 hk
  have hindex : (s.free args).idxOf p = k := by
    rw [← hget]
    exact (hs.filter _).idxOf_getElem k hlt
  simp only [supplied?, hfind, hindex]

/-- Each parameter is named by a label or free, and by one label only. -/
theorem params_perm (hs : s.params.Nodup) (h : s.Labelled args) :
    s.params.Perm ((labels args).map Symbol.name ++ s.free args) := by
  have hnames : ((labels args).map Symbol.name).Nodup :=
    h.distinct.map fun x y hxy => congrArg Symbol.mk hxy
  have happend : ((labels args).map Symbol.name ++ s.free args).Nodup := by
    rw [List.nodup_append]
    refine ⟨hnames, hs.filter _, ?_⟩
    rintro p hp _ hfree rfl
    obtain ⟨name, hname, rfl⟩ := List.mem_map.1 hp
    exact absurd hname (by simpa using (List.mem_filter.1 hfree).2)
  refine (List.perm_ext_iff_of_nodup hs happend).2 fun p => ?_
  rw [List.mem_append, free, List.mem_filter, decide_eq_true_eq]
  constructor
  · intro hp
    by_cases hlabel : ⟨p⟩ ∈ labels args
    · exact Or.inl (List.mem_map.2 ⟨⟨p⟩, hlabel, rfl⟩)
    · exact Or.inr ⟨hp, hlabel⟩
  · rintro (hlabel | ⟨hp, -⟩)
    · obtain ⟨name, hname, rfl⟩ := List.mem_map.1 hlabel
      exact h.known name hname
    · exact hp

theorem filterMap_eq_of_getElem? {α β γ : Type} {f : α → Option γ} {g : β → Option γ}
    {xs : List α} {ys : List β} (hroom : ys.length ≤ xs.length)
    (h : ∀ (k : Nat) (x : α), xs[k]? = some x → f x = (ys[k]?).bind g) :
    xs.filterMap f = ys.filterMap g := by
  induction xs generalizing ys with
  | nil =>
    have hnil : ys = [] := List.length_eq_zero_iff.1 (by simpa using hroom)
    rw [hnil, List.filterMap_nil, List.filterMap_nil]
  | cons x xs ih =>
    have hx : f x = (ys[0]?).bind g := h 0 x rfl
    cases ys with
    | nil =>
      have hrest : xs.filterMap f = ([] : List β).filterMap g := by
        refine ih (by simp) fun k z hz => ?_
        simpa using h (k + 1) z (by simpa using hz)
      rw [List.filterMap_cons_none (by simpa using hx), hrest]
    | cons y ys =>
      have hrest : xs.filterMap f = ys.filterMap g := by
        refine ih (by simpa using hroom) fun k z hz => ?_
        simpa using h (k + 1) z (by simpa using hz)
      have hxy : f x = g y := by simpa using hx
      rw [List.filterMap_cons, List.filterMap_cons, hxy, hrest]

/-- The slots hold the supplied expressions, each of them once. -/
theorem filterMap_supplied?_perm (hs : s.params.Nodup) (h : s.Admits args) :
    ((s.params.map (s.supplied? args)).filterMap id).Perm (args.filterMap (·.value)) := by
  have hlabelled : ((labels args).map Symbol.name).filterMap (s.supplied? args) =
      (args.filter (·.name.isSome)).filterMap (·.value) := by
    rw [labels, List.map_filterMap, List.filterMap_filterMap, List.filterMap_filter]
    refine List.filterMap_congr fun a ha => ?_
    cases hname : a.name with
    | none => rfl
    | some name => exact supplied?_of_label h.labelled ha hname
  have hfree : (s.free args).filterMap (s.supplied? args) =
      (unlabelled args).filterMap (·.value) :=
    filterMap_eq_of_getElem? h.room fun k p hk => supplied?_of_free hs hk
  have hsplit : (args.filter (·.name.isSome) ++ unlabelled args).Perm args := by
    simpa [unlabelled] using List.filter_append_perm (fun a => a.name.isSome) args
  rw [List.filterMap_map]
  refine ((params_perm hs h.labelled).filterMap (s.supplied? args)).trans ?_
  rw [List.filterMap_append, hlabelled, hfree, ← List.filterMap_append]
  exact hsplit.filterMap _

end Signature

end Deferred
