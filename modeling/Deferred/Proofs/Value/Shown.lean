import Deferred.Proofs.Value.Parts
import Deferred.Proofs.Value.Sameness
import Deferred.Value.Text

/-!
# The texts of what is the same

What a text shows of vectors are their elements, and elements that are the same have the same text,
except that a zero shows its sign. So values that are the same have the same text if and only if
they show the same doubles; if not, the texts part at the first zero with another sign.
-/
set_option autoImplicit false

namespace Deferred

/-- Two texts with different characters after a common beginning. -/
def Diverge (a b : String) : Prop :=
  ∃ (common : List Char) (x y : Char) (s t : List Char),
    x ≠ y ∧ a.toList = common ++ x :: s ∧ b.toList = common ++ y :: t

namespace Diverge

variable {a b : String}

theorem ne (h : Diverge a b) : a ≠ b := by
  obtain ⟨common, x, y, s, t, hxy, ha, hb⟩ := h
  rintro rfl
  exact hxy (List.head_eq_of_cons_eq (List.append_cancel_left (ha.symm.trans hb)))

theorem symm (h : Diverge a b) : Diverge b a := by
  obtain ⟨common, x, y, s, t, hxy, ha, hb⟩ := h
  exact ⟨common, y, x, t, s, hxy.symm, hb, ha⟩

theorem after (h : Diverge a b) (c d : String) : Diverge (a ++ c) (b ++ d) := by
  obtain ⟨common, x, y, s, t, hxy, ha, hb⟩ := h
  refine ⟨common, x, y, s ++ c.toList, t ++ d.toList, hxy, ?_, ?_⟩
  · rw [String.toList_append, ha, List.append_assoc, List.cons_append]
  · rw [String.toList_append, hb, List.append_assoc, List.cons_append]

theorem before (h : Diverge a b) (c : String) : Diverge (c ++ a) (c ++ b) := by
  obtain ⟨common, x, y, s, t, hxy, ha, hb⟩ := h
  refine ⟨c.toList ++ common, x, y, s, t, hxy, ?_, ?_⟩
  · rw [String.toList_append, ha, List.append_assoc]
  · rw [String.toList_append, hb, List.append_assoc]

end Diverge

/-- Texts that show two lists of doubles, which are the same number by number: either the doubles
and the texts are equal, or the doubles are not and the texts part. -/
inductive Shown : List Double → List Double → String → String → Prop
  | alike (xs : List Double) (a : String) : Shown xs xs a a
  | apart {xs ys : List Double} {a b : String}
      (same : List.Forall₂ (fun x y => Kind.double.same x y = true) xs ys) (ne : xs ≠ ys)
      (diverge : Diverge a b) : Shown xs ys a b

namespace Shown

variable {xs ys xs' ys' : List Double} {a b a' b' : String}

theorem same (h : Shown xs ys a b) :
    List.Forall₂ (fun x y => Kind.double.same x y = true) xs ys := by
  cases h with
  | alike => exact List.forall₂_same.2 fun x _ => Kind.same_self .double x
  | apart same _ _ => exact same

theorem eq_iff (h : Shown xs ys a b) : a = b ↔ xs = ys := by
  cases h with
  | alike => exact iff_of_true rfl rfl
  | apart _ ne diverge => exact iff_of_false diverge.ne ne

theorem append (h : Shown xs ys a b) (h' : Shown xs' ys' a' b') :
    Shown (xs ++ xs') (ys ++ ys') (a ++ a') (b ++ b') := by
  have hsame := List.rel_append h.same h'.same
  cases h with
  | alike =>
    cases h' with
    | alike => exact .alike _ _
    | apart _ ne diverge =>
      exact .apart hsame (fun he => ne (List.append_cancel_left he)) (diverge.before a)
  | apart same ne diverge =>
    exact .apart hsame (fun he => ne (List.append_inj_left he same.length_eq)) (diverge.after a' b')

theorem before (c : String) (h : Shown xs ys a b) : Shown xs ys (c ++ a) (c ++ b) :=
  append (.alike [] c) h

theorem after (h : Shown xs ys a b) (c : String) : Shown xs ys (a ++ c) (b ++ c) := by
  have happend := h.append (.alike [] c)
  rwa [List.append_nil, List.append_nil] at happend

theorem labelled (label : Option Symbol) (h : Shown xs ys a b) :
    Shown xs ys (labelledText label a) (labelledText label b) := by
  cases label with
  | none => exact h
  | some name => exact h.before (name.name ++ " = ")

end Shown

/-- Lists of texts that show doubles, text by text. -/
inductive ShownEach : List Double → List Double → List String → List String → Prop
  | nil : ShownEach [] [] [] []
  | cons {xs ys xs' ys' : List Double} {a b : String} {as bs : List String} (text : Shown xs ys a b)
      (rest : ShownEach xs' ys' as bs) : ShownEach (xs ++ xs') (ys ++ ys') (a :: as) (b :: bs)

theorem ShownEach.intercalate {xs ys : List Double} {as bs : List String}
    (h : ShownEach xs ys as bs) (separator : String) :
    Shown xs ys (separator.intercalate as) (separator.intercalate bs) := by
  induction h with
  | nil => exact .alike [] _
  | cons text rest ih =>
    cases rest with
    | nil =>
      rw [List.append_nil, List.append_nil, String.intercalate_singleton,
        String.intercalate_singleton]
      exact text
    | cons text' rest' =>
      rw [String.intercalate_cons_cons, String.intercalate_cons_cons]
      exact (text.after separator).append ih

namespace Kind

/-- The double that the text of an element shows, if it is of that kind. -/
def doubles : (k : Kind) → k.Elem → List Double
  | double, x => [x]
  | _, _ => []

theorem shown_double {x y : Double} (h : Kind.double.same x y = true) :
    Shown [x] [y] (doubleText x) (doubleText y) := by
  rcases (Double.same_iff x y).1 h with rfl | ⟨hx, hy⟩
  · exact .alike [x] _
  have hzero {z : Double} (hz : z.magnitude = 0) : z = ⟨0⟩ ∨ z = ⟨0x8000000000000000⟩ := by
    cases hs : z.isNegative with
    | false => exact Or.inl (Double.eq_of_magnitude_eq hz hs)
    | true => exact Or.inr (Double.eq_of_magnitude_eq hz hs)
  have hdiverge : Diverge (doubleText ⟨0⟩) (doubleText ⟨0x8000000000000000⟩) :=
    ⟨[], '0', '-', [], ['0'], by decide, by decide +kernel, by decide +kernel⟩
  rcases hzero hx with rfl | rfl <;> rcases hzero hy with rfl | rfl
  · exact .alike _ _
  · exact .apart (.cons h .nil) (by decide) hdiverge
  · exact .apart (.cons h .nil) (by decide) hdiverge.symm
  · exact .alike _ _

theorem shown_text {k : Kind} {x y : k.Elem} (h : k.same x y = true) :
    Shown (k.doubles x) (k.doubles y) (k.text x) (k.text y) := by
  cases k with
  | int =>
    obtain rfl : x = y := of_decide_eq_true h
    exact .alike _ _
  | double => exact shown_double h
  | logical =>
    obtain rfl : x = y := of_decide_eq_true h
    exact .alike _ _

theorem shownEach_text {k : Kind} {xs ys : List k.Elem}
    (h : List.Forall₂ (fun x y => k.same x y = true) xs ys) :
    ShownEach (xs.flatMap k.doubles) (ys.flatMap k.doubles) (xs.map k.text) (ys.map k.text) := by
  induction h with
  | nil => exact .nil
  | cons hx _ ih => exact .cons (shown_text hx) ih

theorem shown_listText {k : Kind} {xs ys : List k.Elem}
    (h : List.Forall₂ (fun x y => k.same x y = true) xs ys) :
    Shown (xs.flatMap k.doubles) (ys.flatMap k.doubles) (k.listText xs) (k.listText ys) := by
  have heach := (shownEach_text h).intercalate ", "
  cases h with
  | nil => exact .alike _ _
  | cons _ hxs =>
    cases hxs with
    | nil => simpa [listText] using heach
    | cons _ _ => exact (heach.before "c(").after ")"

theorem forall₂_filterMap {k : Kind} {f g : Nat → Option k.Elem} {is : List Nat}
    (h : ∀ i ∈ is, k.sameOption (f i) (g i) = true) :
    List.Forall₂ (fun x y => k.same x y = true) (is.filterMap f) (is.filterMap g) := by
  induction is with
  | nil => exact .nil
  | cons i is ih =>
    have hi := h i List.mem_cons_self
    have his := ih fun j hj => h j (List.mem_cons_of_mem i hj)
    rw [List.filterMap_cons, List.filterMap_cons]
    cases hf : f i <;> cases hg : g i <;> simp only [hf, hg, sameOption, Bool.false_eq_true] at hi ⊢
    · exact his
    · exact .cons hi his

end Kind

theorem Vec.forall₂_of_same {k : Kind} {v w : Vec k} {st : Store} (h : v.same w st = true) :
    List.Forall₂ (fun x y => k.same x y = true) (v.elements st) (w.elements st) := by
  obtain ⟨hsize, hsame⟩ := (same_iff v w st).1 h
  rw [elements, elements, ← hsize]
  exact Kind.forall₂_filterMap fun i hi => hsame i (List.mem_range.1 hi)

namespace Store

variable (st : Store)

mutual

/-- The doubles that the text of a value shows, from left to right. -/
def valueDoubles : Value → List Double
  | .vector (k := k) v => (v.elements st).flatMap k.doubles
  | .language n => nodeDoubles n
  | .list (.plain vs) => doublesOfValues vs
  | .list (.labelled es) => doublesOfEntries es
  | .closure _ fs b _ => doublesOfFormals fs ++ nodeDoubles b
  | _ => []

def nodeDoubles : Expression → List Double
  | .constant v => valueDoubles v
  | .symbol _ => []
  | .call _ as => doublesOfArguments as
  | .block ss => doublesOfNodes ss
  | .ifElse c t none => nodeDoubles c ++ nodeDoubles t
  | .ifElse c t (some e) => nodeDoubles c ++ nodeDoubles t ++ nodeDoubles e
  | .whileLoop c b => nodeDoubles c ++ nodeDoubles b
  | .repeatLoop b => nodeDoubles b
  | .forLoop _ s b => nodeDoubles s ++ nodeDoubles b
  | .function fs b => doublesOfFormals fs ++ nodeDoubles b
  | .assign _ v _ => nodeDoubles v
  | .binary _ l r => nodeDoubles l ++ nodeDoubles r
  | .unary _ x => nodeDoubles x
  | .index b as _ => nodeDoubles b ++ doublesOfArguments as
  | .field b _ => nodeDoubles b
  | .nextLoop => []
  | .breakLoop => []

def doublesOfArguments : List (Argument Expression) → List Double
  | [] => []
  | ⟨_, none⟩ :: as => doublesOfArguments as
  | ⟨_, some n⟩ :: as => nodeDoubles n ++ doublesOfArguments as

def doublesOfNodes : List Expression → List Double
  | [] => []
  | n :: ns => nodeDoubles n ++ doublesOfNodes ns

def doublesOfFormals : List (Formal Expression) → List Double
  | [] => []
  | ⟨_, none⟩ :: fs => doublesOfFormals fs
  | ⟨_, some n⟩ :: fs => nodeDoubles n ++ doublesOfFormals fs

def doublesOfValues : List Value → List Double
  | [] => []
  | v :: vs => valueDoubles v ++ doublesOfValues vs

def doublesOfEntries : List (Entry Value) → List Double
  | [] => []
  | ⟨_, v⟩ :: es => valueDoubles v ++ doublesOfEntries es

end

end Store

/-- Values with all their parts, among which handles to one closure agree. -/
structure Coherent (P : Value → Prop) : Prop where
  children {v : Value} : P v → ∀ c ∈ v.children, P c
  closures {id : ClosureId} {fs gs : List (Formal Expression)} {b c : Expression}
    {scope scope' : EnvironmentId} :
    P (.closure id fs b scope) → P (.closure id gs c scope') → gs = fs ∧ c = b

namespace Store

variable {h : Heap} {P : Value → Prop}

mutual

theorem SameValue.shown (hP : Coherent P) : ∀ {v w : Value}, SameValue h.store v w → P v → P w →
    Shown (h.store.valueDoubles v) (h.store.valueDoubles w) (h.valueText v) (h.valueText w)
  | _, _, .null, _, _ => .alike _ _
  | _, _, .vector hs, _, _ => Kind.shown_listText (Vec.forall₂_of_same hs)
  | _, _, .symbol _, _, _ => .alike _ _
  | _, _, .language hs, hv, hw => hs.shown hP (hP.children hv) (hP.children hw)
  | _, _, .promise _ _ _ _ _, _, _ => .alike _ _
  | _, _, .bundle _, _, _ => .alike _ _
  | _, _, .plain hs, hv, hw =>
    (((hs.shown hP (hP.children hv) (hP.children hw)).intercalate ", ").before "list(").after ")"
  | _, _, .labelled hs, hv, hw =>
    (((hs.shown hP (hP.children hv) (hP.children hw)).intercalate ", ").before "list(").after ")"
  | _, _, .environment _, _, _ => .alike _ _
  | _, _, .closure _ _ _ _ _ _ _, hv, hw => by
    obtain ⟨rfl, rfl⟩ := hP.closures hv hw
    exact .alike _ _

theorem SameNode.shown (hP : Coherent P) : ∀ {m n : Expression}, SameNode h.store m n →
    (∀ c ∈ m.constants, P c) → (∀ c ∈ n.constants, P c) →
    Shown (h.store.nodeDoubles m) (h.store.nodeDoubles n) (h.nodeText m) (h.nodeText n)
  | _, _, .constant hs, hm, hn =>
    hs.shown hP (hm _ (List.mem_singleton.2 rfl)) (hn _ (List.mem_singleton.2 rfl))
  | _, _, .symbol _, _, _ => .alike _ _
  | _, _, .call f hs, hm, hn =>
    (((hs.shown hP hm hn).intercalate ", ").before (f.name ++ "(")).after ")"
  | _, _, .block hs, hm, hn =>
    (((hs.shown hP hm hn).intercalate "; ").before "\x7b").after "\x7d"
  | _, _, .ifThen hc ht, hm, hn => by
    obtain ⟨hmc, hmt⟩ := List.forall_mem_append.1 hm
    obtain ⟨hnc, hnt⟩ := List.forall_mem_append.1 hn
    exact (((hc.shown hP hmc hnc).before "if (").after ") ").append (ht.shown hP hmt hnt)
  | _, _, .ifElse hc ht he, hm, hn => by
    obtain ⟨hmct, hme⟩ := List.forall_mem_append.1 hm
    obtain ⟨hmc, hmt⟩ := List.forall_mem_append.1 hmct
    obtain ⟨hnct, hne⟩ := List.forall_mem_append.1 hn
    obtain ⟨hnc, hnt⟩ := List.forall_mem_append.1 hnct
    exact (((((hc.shown hP hmc hnc).before "if (").after ") ").append (ht.shown hP hmt hnt)).after
      " else ").append (he.shown hP hme hne)
  | _, _, .whileLoop hc hb, hm, hn => by
    obtain ⟨hmc, hmb⟩ := List.forall_mem_append.1 hm
    obtain ⟨hnc, hnb⟩ := List.forall_mem_append.1 hn
    exact (((hc.shown hP hmc hnc).before "while (").after ") ").append (hb.shown hP hmb hnb)
  | _, _, .repeatLoop hb, hm, hn => (hb.shown hP hm hn).before "repeat "
  | _, _, .forLoop x hs hb, hm, hn => by
    obtain ⟨hms, hmb⟩ := List.forall_mem_append.1 hm
    obtain ⟨hns, hnb⟩ := List.forall_mem_append.1 hn
    exact (((hs.shown hP hms hns).before ("for (" ++ x.name ++ " in ")).after ") ").append
      (hb.shown hP hmb hnb)
  | _, _, .function hf hb, hm, hn => by
    obtain ⟨hmf, hmb⟩ := List.forall_mem_append.1 hm
    obtain ⟨hnf, hnb⟩ := List.forall_mem_append.1 hn
    exact ((((hf.shown hP hmf hnf).intercalate ", ").before "function(").after ") ").append
      (hb.shown hP hmb hnb)
  | _, _, .assign x hv isSuper, hm, hn =>
    (hv.shown hP hm hn).before (x.name ++ if isSuper then " <<- " else " <- ")
  | _, _, .binary op hl hr, hm, hn => by
    obtain ⟨hml, hmr⟩ := List.forall_mem_append.1 hm
    obtain ⟨hnl, hnr⟩ := List.forall_mem_append.1 hn
    have hleft := hl.shown hP hml hnl
    have hright := hr.shown hP hmr hnr
    rw [Heap.nodeText, Heap.nodeText]
    split
    · exact (hleft.after op.token).append hright
    · exact (((hleft.after " ").after op.token).after " ").append hright
  | _, _, .unary op hx, hm, hn => (hx.shown hP hm hn).before op.token
  | _, _, .index hb ha exact, hm, hn => by
    obtain ⟨hmb, hma⟩ := List.forall_mem_append.1 hm
    obtain ⟨hnb, hna⟩ := List.forall_mem_append.1 hn
    have hbase := hb.shown hP hmb hnb
    have harguments := (ha.shown hP hma hna).intercalate ", "
    cases exact with
    | true => exact ((hbase.after "[[").append harguments).after "]]"
    | false => exact ((hbase.after "[").append harguments).after "]"
  | _, _, .field hb x, hm, hn => ((hb.shown hP hm hn).after "$").after x.name
  | _, _, .nextLoop, _, _ => .alike _ _
  | _, _, .breakLoop, _, _ => .alike _ _

theorem SameArguments.shown (hP : Coherent P) : ∀ {as bs : List (Argument Expression)},
    SameArguments h.store as bs → (∀ c ∈ Node.constantsOfArguments as, P c) →
    (∀ c ∈ Node.constantsOfArguments bs, P c) →
    ShownEach (h.store.doublesOfArguments as) (h.store.doublesOfArguments bs)
      (h.argumentTexts as) (h.argumentTexts bs)
  | _, _, .nil, _, _ => .nil
  | _, _, .hole name hs, ha, hb => .cons (.alike [] (labelledText name "")) (hs.shown hP ha hb)
  | _, _, .cons name hn hs, ha, hb => by
    obtain ⟨han, has⟩ := List.forall_mem_append.1 ha
    obtain ⟨hbn, hbs⟩ := List.forall_mem_append.1 hb
    exact .cons ((hn.shown hP han hbn).labelled name) (hs.shown hP has hbs)

theorem SameNodes.shown (hP : Coherent P) : ∀ {ms ns : List Expression},
    SameNodes h.store ms ns → (∀ c ∈ Node.constantsOfNodes ms, P c) →
    (∀ c ∈ Node.constantsOfNodes ns, P c) →
    ShownEach (h.store.doublesOfNodes ms) (h.store.doublesOfNodes ns) (h.nodeTexts ms)
      (h.nodeTexts ns)
  | _, _, .nil, _, _ => .nil
  | _, _, .cons hn hs, hm, hm' => by
    obtain ⟨hmn, hms⟩ := List.forall_mem_append.1 hm
    obtain ⟨hnn, hns⟩ := List.forall_mem_append.1 hm'
    exact .cons (hn.shown hP hmn hnn) (hs.shown hP hms hns)

theorem SameFormals.shown (hP : Coherent P) : ∀ {fs gs : List (Formal Expression)},
    SameFormals h.store fs gs → (∀ c ∈ Node.constantsOfFormals fs, P c) →
    (∀ c ∈ Node.constantsOfFormals gs, P c) →
    ShownEach (h.store.doublesOfFormals fs) (h.store.doublesOfFormals gs) (h.formalTexts fs)
      (h.formalTexts gs)
  | _, _, .nil, _, _ => .nil
  | _, _, .required name hs, hf, hg => .cons (.alike [] name.name) (hs.shown hP hf hg)
  | _, _, .cons name hn hs, hf, hg => by
    obtain ⟨hfn, hfs⟩ := List.forall_mem_append.1 hf
    obtain ⟨hgn, hgs⟩ := List.forall_mem_append.1 hg
    exact .cons ((hn.shown hP hfn hgn).labelled (some name)) (hs.shown hP hfs hgs)

theorem SameValues.shown (hP : Coherent P) : ∀ {vs ws : List Value}, SameValues h.store vs ws →
    (∀ v ∈ vs, P v) → (∀ w ∈ ws, P w) →
    ShownEach (h.store.doublesOfValues vs) (h.store.doublesOfValues ws) (h.valueTexts vs)
      (h.valueTexts ws)
  | _, _, .nil, _, _ => .nil
  | _, _, .cons hv hs, hvs, hws => by
    obtain ⟨hvv, hvs⟩ := List.forall_mem_cons.1 hvs
    obtain ⟨hww, hws⟩ := List.forall_mem_cons.1 hws
    exact .cons (hv.shown hP hvv hww) (hs.shown hP hvs hws)

theorem SameEntries.shown (hP : Coherent P) : ∀ {es fs : List (Entry Value)},
    SameEntries h.store es fs → (∀ v ∈ (Listing.labelled es).values, P v) →
    (∀ w ∈ (Listing.labelled fs).values, P w) →
    ShownEach (h.store.doublesOfEntries es) (h.store.doublesOfEntries fs) (h.entryTexts es)
      (h.entryTexts fs)
  | _, _, .nil, _, _ => .nil
  | _, _, .cons label hv hs, hes, hfs => by
    obtain ⟨hvv, hes⟩ := List.forall_mem_cons.1 hes
    obtain ⟨hww, hfs⟩ := List.forall_mem_cons.1 hfs
    exact .cons ((hv.shown hP hvv hww).labelled label) (hs.shown hP hes hfs)

end

end Store

end Deferred
