import Deferred.Proofs.Builtin.Supplied

set_option autoImplicit false

namespace Deferred

namespace Signature

variable {s : Signature} {args : List (Argument Expression)}

theorem getElem?_of_position? {p : String} {i : Nat} (h : s.position? p = some i) :
    s.params[i]? = some p := by
  obtain ⟨hi, hp, -⟩ := List.idxOf?_eq_some_iff.1 h
  rw [List.getElem?_eq_getElem hi, hp]

theorem exists_position?_iff {p : String} : (∃ i, s.position? p = some i) ↔ p ∈ s.params := by
  rw [← Option.isSome_iff_exists]
  exact List.isSome_idxOf?

theorem position?_eq_none_iff {p : String} : s.position? p = none ↔ p ∉ s.params :=
  List.idxOf?_eq_none_iff

theorem position?_of_getElem? (hs : s.params.Nodup) {p : String} {i : Nat}
    (h : s.params[i]? = some p) : s.position? p = some i := by
  obtain ⟨j, hj⟩ := exists_position?_iff.2 (List.mem_of_getElem? h)
  obtain ⟨hi, -⟩ := List.getElem?_eq_some_iff.1 h
  have hij : i = j := (List.getElem?_inj hi hs).1 (h.trans (getElem?_of_position? hj).symm)
  rw [hj, hij]

theorem eq_of_position? {x y : Symbol} {i : Nat} (hx : s.position? x.name = some i)
    (hy : s.position? y.name = some i) : x = y := by
  have hname : some x.name = some y.name :=
    (getElem?_of_position? hx).symm.trans (getElem?_of_position? hy)
  exact congrArg Symbol.mk (Option.some.inj hname)

/-- The position that a labelled argument takes up, and what with. -/
def place? (s : Signature) (a : Argument Expression) : Option (Nat × Option Expression) :=
  a.name.bind fun name => (s.position? name.name).map fun i => (i, a.value)

/-- What the labelled arguments take up, from left to right. -/
def places (s : Signature) (args : List (Argument Expression)) : Taken :=
  args.filterMap s.place?

theorem matchNamed_append (s : Signature) (as bs : List (Argument Expression)) (taken : Taken) :
    s.matchNamed (as ++ bs) taken = (s.matchNamed as taken).bind (s.matchNamed bs) := by
  induction as generalizing taken with
  | nil => rfl
  | cons a as ih =>
    rw [List.cons_append, matchNamed, matchNamed]
    cases a.name with
    | none => exact ih taken
    | some name =>
      dsimp only
      cases s.position? name.name with
      | none => rfl
      | some i =>
        dsimp only
        by_cases hi : i ∈ taken.map Prod.fst
        · rw [if_pos hi, if_pos hi]
          rfl
        · rw [if_neg hi, if_neg hi]
          exact ih _

theorem map_fst_places (s : Signature) (args : List (Argument Expression)) :
    (s.places args).map Prod.fst = (labels args).filterMap fun name => s.position? name.name := by
  rw [places, labels, List.map_filterMap, List.filterMap_filterMap]
  refine List.filterMap_congr fun a _ => ?_
  simp only [place?]
  cases a.name with
  | none => rfl
  | some name => simp [Function.comp_def]

theorem mem_map_fst_places_iff {i : Nat} :
    i ∈ (s.places args).map Prod.fst ↔ ∃ name ∈ labels args, s.position? name.name = some i := by
  rw [map_fst_places, List.mem_filterMap]

theorem nodup_map_fst_places (h : s.Labelled args) : ((s.places args).map Prod.fst).Nodup := by
  rw [map_fst_places]
  exact h.distinct.filterMap fun x y i hx hy => eq_of_position? hx hy

/-- Labels that are fine, and name no position that is taken, take up theirs. -/
theorem matchNamed_of_labelled {as : List (Argument Expression)} {taken : Taken}
    (h : s.Labelled as)
    (hnew : ∀ name ∈ labels as, ∀ i, s.position? name.name = some i → i ∉ taken.map Prod.fst) :
    s.matchNamed as taken = .ok ((s.places as).reverse ++ taken) := by
  induction as generalizing taken with
  | nil => rfl
  | cons a as ih =>
    rw [matchNamed]
    cases ha : a.name with
    | none =>
      have hlabels : labels (a :: as) = labels as := List.filterMap_cons_none ha
      have hplaces : s.places (a :: as) = s.places as :=
        List.filterMap_cons_none (by simp [place?, ha])
      rw [hlabels] at hnew
      rw [hplaces]
      exact ih ⟨hlabels ▸ h.known, hlabels ▸ h.distinct⟩ hnew
    | some name =>
      have hlabels : labels (a :: as) = name :: labels as := List.filterMap_cons_some ha
      have hknown := h.known
      have hdistinct := h.distinct
      rw [hlabels] at hknown hdistinct hnew
      obtain ⟨hname, has⟩ := List.nodup_cons.1 hdistinct
      obtain ⟨i, hi⟩ := exists_position?_iff.2 (hknown name List.mem_cons_self)
      have hplaces : s.places (a :: as) = (i, a.value) :: s.places as :=
        List.filterMap_cons_some (by simp [place?, ha, hi])
      have hfree : i ∉ taken.map Prod.fst := hnew name List.mem_cons_self i hi
      simp only [hi, if_neg hfree]
      rw [hplaces, List.reverse_cons, List.append_assoc]
      refine ih ⟨fun x hx => hknown x (List.mem_cons_of_mem name hx), has⟩ fun x hx j hj => ?_
      rw [List.map_cons, List.mem_cons, not_or]
      refine ⟨?_, hnew x (List.mem_cons_of_mem name hx) j hj⟩
      rintro rfl
      exact hname (eq_of_position? hj hi ▸ hx)

theorem matchNamed_nil_of_labelled (h : s.Labelled args) :
    s.matchNamed args [] = .ok (s.places args).reverse := by
  rw [matchNamed_of_labelled h (by simp), List.append_nil]

theorem matchNamed_of_unknown {before after : List (Argument Expression)}
    {a : Argument Expression} {name : Symbol} (hbefore : s.Labelled before)
    (ha : a.name = some name) (hunknown : name.name ∉ s.params) :
    s.matchNamed (before ++ a :: after) [] = .error (.unusedArgument a) := by
  have hposition : s.position? name.name = none := position?_eq_none_iff.2 hunknown
  rw [matchNamed_append, matchNamed_nil_of_labelled hbefore, Except.bind, matchNamed]
  simp only [ha, hposition]

theorem matchNamed_of_repeated {before after : List (Argument Expression)}
    {a : Argument Expression} {name : Symbol} (hbefore : s.Labelled before)
    (ha : a.name = some name) (hagain : name ∈ labels before) :
    s.matchNamed (before ++ a :: after) [] = .error (.duplicateArgument name) := by
  obtain ⟨i, hi⟩ := exists_position?_iff.2 (hbefore.known name hagain)
  have htaken : i ∈ (s.places before).reverse.map Prod.fst := by
    rw [List.map_reverse, List.mem_reverse]
    exact mem_map_fst_places_iff.2 ⟨name, hagain, hi⟩
  rw [matchNamed_append, matchNamed_nil_of_labelled hbefore, Except.bind, matchNamed]
  simp only [ha, hi, if_pos htaken]

theorem matchPositional_of_le {as : List (Argument Expression)} {positions : List Nat}
    (h : as.length ≤ positions.length) :
    matchPositional as positions = .ok (positions.zip (as.map (·.value))) := by
  induction as generalizing positions with
  | nil => simp [matchPositional]
  | cons a as ih =>
    cases positions with
    | nil => simp at h
    | cons i positions =>
      have hle : as.length ≤ positions.length := by simpa using h
      simp only [matchPositional, ih hle, List.map_cons, List.zip_cons_cons]

theorem matchPositional_of_surplus {as : List (Argument Expression)} {positions : List Nat}
    {a : Argument Expression} (h : as[positions.length]? = some a) :
    matchPositional as positions = .error (.unusedArgument a) := by
  induction as generalizing positions with
  | nil => simp at h
  | cons b as ih =>
    cases positions with
    | nil =>
      obtain rfl : b = a := by simpa using h
      rfl
    | cons i positions =>
      have hnext : as[positions.length]? = some a := by simpa using h
      simp only [matchPositional, ih hnext]

def freePositions (s : Signature) (args : List (Argument Expression)) : List Nat :=
  (List.range s.params.length).filter (· ∉ (s.places args).map Prod.fst)

theorem nodup_freePositions : (s.freePositions args).Nodup := List.nodup_range.filter _

theorem free_eq_map_freePositions (hs : s.params.Nodup) :
    s.free args = (s.freePositions args).map fun i => s.params.getD i "" := by
  have hparams : s.params = (List.range s.params.length).map fun i => s.params.getD i "" := by
    refine List.ext_getElem (by simp) fun i hi _ => ?_
    simp [hi]
  rw [free]
  conv_lhs => rw [hparams]
  rw [List.filter_map, freePositions]
  refine congrArg (List.map _) (List.filter_congr fun i hi => ?_)
  have hlt : i < s.params.length := List.mem_range.1 hi
  have hget : s.params[i]? = some (s.params.getD i "") := by simp [hlt]
  have hiff : ⟨s.params.getD i ""⟩ ∈ labels args ↔ i ∈ (s.places args).map Prod.fst := by
    rw [mem_map_fst_places_iff]
    constructor
    · exact fun hmem => ⟨_, hmem, position?_of_getElem? hs hget⟩
    · rintro ⟨⟨x⟩, hmem, hx⟩
      have hsame : some x = some (s.params.getD i "") := (getElem?_of_position? hx).symm.trans hget
      rwa [Option.some.inj hsame] at hmem
  simp only [Function.comp_apply, hiff]

theorem length_freePositions (hs : s.params.Nodup) :
    (s.freePositions args).length = (s.free args).length := by
  rw [free_eq_map_freePositions hs, List.length_map]

theorem lookup_of_mem {ν : Type} {es : List (Nat × ν)} (h : (es.map Prod.fst).Nodup) {i : Nat}
    {v : ν} (hm : (i, v) ∈ es) : es.lookup i = some v := by
  induction es with
  | nil => exact absurd hm List.not_mem_nil
  | cons e es ih =>
    rw [List.map_cons, List.nodup_cons] at h
    rcases List.mem_cons.1 hm with rfl | hmem
    · simp
    · have hne : i ≠ e.1 := by
        rintro rfl
        exact h.1 (List.mem_map.2 ⟨_, hmem, rfl⟩)
      obtain ⟨j, w⟩ := e
      rw [List.lookup_cons, beq_false_of_ne hne]
      exact ih h.2 hmem

theorem lookup_zip {ν : Type} {positions : List Nat} {vs : List ν} (h : positions.Nodup)
    {i k : Nat} (hk : positions[k]? = some i) : (positions.zip vs).lookup i = vs[k]? := by
  induction positions generalizing vs k with
  | nil => simp at hk
  | cons j positions ih =>
    obtain ⟨hj, hnodup⟩ := List.nodup_cons.1 h
    cases vs with
    | nil => simp
    | cons v vs =>
      rw [List.zip_cons_cons, List.lookup_cons]
      cases k with
      | zero =>
        obtain rfl : j = i := by simpa using hk
        simp
      | succ k =>
        have hi : positions[k]? = some i := by simpa using hk
        have hne : i ≠ j := fun hij => hj (hij ▸ List.mem_of_getElem? hi)
        rw [beq_false_of_ne hne]
        simpa using ih hnodup hi

theorem slotsOf_eq (hs : s.params.Nodup) (h : s.Labelled args) :
    s.slotsOf ((s.places args).reverse ++
        (s.freePositions args).zip ((unlabelled args).map (·.value))) =
      s.params.map (s.supplied? args) := by
  refine List.ext_getElem (by simp [slotsOf]) fun i hi hi' => ?_
  have hlt : i < s.params.length := by simpa using hi'
  have hposition : s.position? s.params[i] = some i :=
    position?_of_getElem? hs (List.getElem?_eq_getElem hlt)
  simp only [slotsOf, List.getElem_map, List.getElem_range, List.lookup_append]
  by_cases hmem : i ∈ (s.places args).map Prod.fst
  · obtain ⟨name, hname, hi⟩ := mem_map_fst_places_iff.1 hmem
    obtain ⟨a, ha, hlabel⟩ := mem_labels_iff.1 hname
    have hplace : (i, a.value) ∈ (s.places args).reverse := by
      rw [List.mem_reverse]
      exact List.mem_filterMap.2 ⟨a, ha, by simp [place?, hlabel, hi]⟩
    have hnodup : ((s.places args).reverse.map Prod.fst).Nodup := by
      rw [List.map_reverse, List.nodup_reverse]
      exact nodup_map_fst_places h
    have hparam : s.params[i] = name.name := by
      have hget := getElem?_of_position? hi
      rw [List.getElem?_eq_getElem hlt] at hget
      exact Option.some.inj hget
    rw [lookup_of_mem hnodup hplace, Option.some_or, Option.join_some, hparam,
      supplied?_of_label h ha hlabel]
  · have hnone : (s.places args).reverse.lookup i = none := by
      refine List.lookup_eq_none_iff.2 fun e he => ?_
      rw [bne_iff_ne]
      rintro rfl
      exact hmem (List.mem_map.2 ⟨e, List.mem_reverse.1 he, rfl⟩)
    have hfree : i ∈ s.freePositions args :=
      List.mem_filter.2 ⟨List.mem_range.2 hlt, by simpa using hmem⟩
    obtain ⟨k, hk⟩ := List.mem_iff_getElem?.1 hfree
    have hkp : (s.free args)[k]? = some s.params[i] := by
      rw [free_eq_map_freePositions hs, List.getElem?_map, hk]
      simp [hlt]
    rw [hnone, Option.none_or, lookup_zip nodup_freePositions hk, supplied?_of_free hs hkp,
      List.getElem?_map]
    cases (unlabelled args)[k]? <;> rfl

theorem join_getElem?_map {p : String} {i : Nat} (hi : s.position? p = some i)
    (f : String → Option Expression) : ((s.params.map f)[i]?).join = f p := by
  rw [List.getElem?_map, getElem?_of_position? hi]
  rfl

theorem checkRequired_append (slots : List (Option Expression)) (ps qs : List String) :
    s.checkRequired slots (ps ++ qs) =
      (s.checkRequired slots ps).bind fun _ => s.checkRequired slots qs := by
  induction ps with
  | nil => rfl
  | cons p ps ih =>
    rw [List.cons_append, checkRequired, checkRequired]
    cases s.position? p with
    | none => rfl
    | some i =>
      dsimp only
      split
      · exact ih
      · rfl

theorem checkRequired_of_satisfied {ps : List String} (h : ∀ p ∈ ps, s.Satisfied args p) :
    s.checkRequired (s.params.map (s.supplied? args)) ps = .ok () := by
  induction ps with
  | nil => rfl
  | cons p ps ih =>
    obtain ⟨⟨hknown, hsome⟩, hps⟩ := List.forall_mem_cons.1 h
    obtain ⟨i, hi⟩ := exists_position?_iff.2 hknown
    simp only [checkRequired, hi, join_getElem?_map hi, hsome, if_true]
    exact ih hps

theorem matchArguments_of_labelled (h : s.Labelled args) :
    s.matchArguments args =
      (matchPositional (unlabelled args) (s.freePositions args)).bind fun positional =>
        (s.checkRequired (s.slotsOf ((s.places args).reverse ++ positional)) s.required).bind
          fun _ => .ok ⟨s.params, s.slotsOf ((s.places args).reverse ++ positional)⟩ := by
  have hfree : (List.range s.params.length).filter
      (· ∉ (s.places args).reverse.map Prod.fst) = s.freePositions args := by
    simp only [freePositions, List.map_reverse, List.mem_reverse]
  rw [matchArguments, matchNamed_nil_of_labelled h]
  change (matchPositional _ ((List.range s.params.length).filter
    (· ∉ (s.places args).reverse.map Prod.fst))).bind _ = _
  rw [hfree]
  rfl

theorem matchArguments_of_room (hs : s.params.Nodup) (h : s.Labelled args)
    (hroom : (unlabelled args).length ≤ (s.free args).length) :
    s.matchArguments args =
      (s.checkRequired (s.params.map (s.supplied? args)) s.required).bind fun _ =>
        .ok ⟨s.params, s.params.map (s.supplied? args)⟩ := by
  rw [← length_freePositions hs] at hroom
  rw [matchArguments_of_labelled h, matchPositional_of_le hroom, Except.bind, slotsOf_eq hs h]

theorem matchArguments_of_admits (hs : s.params.Nodup) (h : s.Admits args) :
    s.matchArguments args = .ok ⟨s.params, s.params.map (s.supplied? args)⟩ := by
  rw [matchArguments_of_room hs h.labelled h.room, checkRequired_of_satisfied h.required,
    Except.bind]

theorem matchArguments_of_rejects (hs : s.params.Nodup) {e : Fault} (h : s.Rejects args e) :
    s.matchArguments args = .error e := by
  cases h with
  | unknown split fine label unknown =>
    rw [matchArguments, split, matchNamed_of_unknown fine label unknown]
    rfl
  | repeated split fine label again =>
    rw [matchArguments, split, matchNamed_of_repeated fine label again]
    rfl
  | surplus fine first =>
    rw [← length_freePositions hs] at first
    rw [matchArguments_of_labelled fine, matchPositional_of_surplus first]
    rfl
  | notFormal fine room split satisfied unknown =>
    rw [matchArguments_of_room hs fine room, split, checkRequired_append,
      checkRequired_of_satisfied satisfied, Except.bind, checkRequired,
      position?_eq_none_iff.2 unknown]
    rfl
  | missing fine room split satisfied known empty =>
    obtain ⟨i, hi⟩ := exists_position?_iff.2 known
    rw [matchArguments_of_room hs fine room, split, checkRequired_append,
      checkRequired_of_satisfied satisfied, Except.bind, checkRequired, hi]
    simp only [join_getElem?_map hi, empty]
    rfl

theorem matchArguments_eq_ok_iff (hs : s.params.Nodup) (m : Matching) :
    s.matchArguments args = .ok m ↔
      s.Admits args ∧ m = ⟨s.params, s.params.map (s.supplied? args)⟩ := by
  constructor
  · intro hm
    rcases admits_or_exists_rejects s args with hadmits | ⟨e, he⟩
    · have hok := matchArguments_of_admits hs hadmits
      exact ⟨hadmits, Except.ok.inj (hm.symm.trans hok)⟩
    · exact absurd (hm.symm.trans (matchArguments_of_rejects hs he)) (by simp)
  · rintro ⟨hadmits, rfl⟩
    exact matchArguments_of_admits hs hadmits

theorem matchArguments_eq_error_iff (hs : s.params.Nodup) (e : Fault) :
    s.matchArguments args = .error e ↔ s.Rejects args e := by
  refine ⟨fun he => ?_, matchArguments_of_rejects hs⟩
  rcases admits_or_exists_rejects s args with hadmits | ⟨e', he'⟩
  · exact absurd (he.symm.trans (matchArguments_of_admits hs hadmits)) (by simp)
  · have herror : e = e' :=
      Except.error.inj (he.symm.trans (matchArguments_of_rejects hs he'))
    exact herror ▸ he'

theorem get?_of_mem {p : String} (hp : p ∈ s.params) (f : String → Option Expression) :
    (Matching.mk s.params (s.params.map f)).get? p = f p := by
  obtain ⟨i, hi⟩ := exists_position?_iff.2 hp
  have hposition : (Matching.mk s.params (s.params.map f)).position? p = some i := hi
  rw [Matching.get?, hposition, Option.bind_some, join_getElem?_map hi]

/-- Arguments are matched just when they are admitted. Each parameter with a label then holds what
the argument with that label does, each of the others what the argument at the same place among
those without a label does, if there is one, and all that is supplied is held once. Arguments that
are not admitted are refused with the fault of the first check that they do not pass. -/
theorem matchArguments_outcome (s : Signature) (args : List (Argument Expression))
    (hs : s.params.Nodup) :
    (∀ m, s.matchArguments args = .ok m ↔
      s.Admits args ∧ m = ⟨s.params, s.params.map (s.supplied? args)⟩) ∧
    (∀ m, s.matchArguments args = .ok m →
      (∀ a ∈ args, ∀ name, a.name = some name → m.get? name.name = a.value) ∧
      (∀ (k : Nat) (p : String), (s.free args)[k]? = some p →
        m.get? p = ((unlabelled args)[k]?).bind (·.value)) ∧
      (m.slots.filterMap id).Perm (args.filterMap (·.value))) ∧
    ∀ e, s.matchArguments args = .error e ↔ s.Rejects args e := by
  refine ⟨matchArguments_eq_ok_iff hs, fun m hm => ?_, matchArguments_eq_error_iff hs⟩
  obtain ⟨hadmits, rfl⟩ := (matchArguments_eq_ok_iff hs m).1 hm
  refine ⟨fun a ha name hname => ?_, fun k p hk => ?_, filterMap_supplied?_perm hs hadmits⟩
  · have hknown := hadmits.labelled.known name (mem_labels_iff.2 ⟨a, ha, hname⟩)
    rw [get?_of_mem hknown, supplied?_of_label hadmits.labelled ha hname]
  · have hparam : p ∈ s.params := List.mem_of_mem_filter (List.mem_of_getElem? hk)
    rw [get?_of_mem hparam, supplied?_of_free hs hk]

/-- A hole takes up the first parameter; a label that comes again is refused though the argument
that had it first was a hole. -/
theorem matchArguments_outcome_holes :
    let s : Signature := ⟨"f", ["a", "b", "c"], ["b"]⟩
    let x : Expression := .symbol ⟨"x"⟩
    let y : Expression := .symbol ⟨"y"⟩
    let args : List (Argument Expression) := [⟨none, none⟩, ⟨some ⟨"c"⟩, some y⟩, ⟨none, some x⟩]
    let twice : List (Argument Expression) :=
      [⟨some ⟨"c"⟩, none⟩, ⟨none, some x⟩, ⟨some ⟨"c"⟩, some y⟩]
    s.params.Nodup ∧ s.matchArguments args = .ok ⟨["a", "b", "c"], [none, some x, some y]⟩ ∧
      s.Admits args ∧ ([x, y] : List Expression).Perm [y, x] ∧
      s.matchArguments twice = .error (.duplicateArgument ⟨"c"⟩) ∧
      s.Rejects twice (.duplicateArgument ⟨"c"⟩) := by
  intro s x y args twice
  have hs : s.params.Nodup := by decide
  have hok : s.matchArguments args = .ok ⟨["a", "b", "c"], [none, some x, some y]⟩ := rfl
  have hrefused : s.matchArguments twice = .error (.duplicateArgument ⟨"c"⟩) := rfl
  have hadmits := ((matchArguments_outcome s args hs).1 _).1 hok
  have hheld := (matchArguments_outcome s args hs).2.1 _ hok
  have hrejects := ((matchArguments_outcome s twice hs).2.2 _).1 hrefused
  exact ⟨hs, hok, hadmits.1, hheld.2.2, hrefused, hrejects⟩

end Signature

end Deferred
