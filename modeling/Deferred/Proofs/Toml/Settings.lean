import Deferred.Proofs.Toml.Lines

/-!
# Documents of one table

A document that is one table of settings, what is read from it, and what becomes of it when the
lines of some keys or of the whole table are deleted from its text. Deleting works on any text: it
looks only at the keys of lines and at headers.
-/
set_option autoImplicit false

namespace Deferred.Toml

/-- The lines of a text, each with its end. -/
def lines : List Char → List (List Char)
  | [] => []
  | '\n' :: cs => ['\n'] :: lines cs
  | c :: cs =>
    match lines cs with
    | [] => [[c]]
    | l :: ls => (c :: l) :: ls

theorem lines_append {l : List Char} (h : '\n' ∉ l) (cs : List Char) :
    lines (l ++ '\n' :: cs) = (l ++ ['\n']) :: lines cs := by
  induction l with
  | nil => rfl
  | cons c l ih =>
    rw [List.mem_cons, not_or] at h
    rw [List.cons_append, lines.eq_3 _ _ (fun he => h.1 he.symm), ih h.2]
    rfl

def assignedKey? (line : List Char) : Option String :=
  match readKey line with
  | some (([], key), '=' :: _) => some key
  | _ => none

def openedTable? (line : List Char) : Option String :=
  match line with
  | '[' :: r =>
    match readKey r with
    | some (([], key), ']' :: _) => some key
    | _ => none
  | _ => none

/-- The text without the lines that give values to some keys. -/
def withoutKeys (keys : List String) (text : String) : String :=
  let kept := (lines text.toList).filter fun l => !(assignedKey? l).any (· ∈ keys)
  String.ofList kept.flatten

/-- Drops the lines from the header of a table up to the next header. -/
def dropTable (name : String) : Bool → List (List Char) → List (List Char)
  | _, [] => []
  | inside, l :: ls =>
    match openedTable? l with
    | some key => if key = name then dropTable name true ls else l :: dropTable name false ls
    | none => if inside then dropTable name true ls else l :: dropTable name false ls

def withoutTable (name : String) (text : String) : String :=
  String.ofList (dropTable name false (lines text.toList)).flatten

namespace Line

def key? : Line → Option String
  | header _ => none
  | setting key _ => some key

def table? : Line → Option String
  | header key => some key
  | setting _ _ => none

theorem newline_not_mem {p : Char → Bool} {s : String} (h : isWord p s = true)
    (hp : p '\n' = false) : '\n' ∉ s.toList := fun hmem =>
  Bool.false_ne_true (hp.symm.trans (List.all_eq_true.1 (all_of_isWord h) _ hmem))

theorem lines_chars {l : Line} (h : l.isPlain = true) (cs : List Char) :
    lines (l.chars ++ cs) = l.chars :: lines cs := by
  cases l with
  | header key =>
    have hkey := newline_not_mem h rfl
    have hline := lines_append (l := '[' :: (key.toList ++ [']'])) (by simp [hkey]) cs
    simpa [chars] using hline
  | setting key value =>
    obtain ⟨hkey, hvalue⟩ := Bool.and_eq_true_iff.1 h
    have hline := lines_append (l := key.toList ++ ' ' :: '=' :: ' ' :: value.toList)
      (by simp [newline_not_mem hkey rfl, newline_not_mem hvalue rfl]) cs
    simpa [chars] using hline

theorem lines_flatMap_chars {ls : List Line} (h : ∀ l ∈ ls, l.isPlain = true) :
    lines (ls.flatMap chars) = ls.map chars := by
  induction ls with
  | nil => rfl
  | cons l ls ih =>
    rw [List.flatMap_cons, lines_chars (h l List.mem_cons_self),
      ih fun m hm => h m (List.mem_cons_of_mem l hm), List.map_cons]

theorem assignedKey?_chars {l : Line} (h : l.isPlain = true) : assignedKey? l.chars = l.key? := by
  cases l with
  | header key =>
    -- No key starts with a bracket.
    have hnone : readKey (header key).chars = none := by
      rw [chars, readKey, List.length_cons, readKeyParts, dropBlanks_of_not_isBlank rfl]
      rfl
    rw [assignedKey?, hnone]
    rfl
  | setting key value =>
    rw [assignedKey?, chars, readKey_setting (Bool.and_eq_true_iff.1 h).1]
    rfl

theorem openedTable?_chars {l : Line} (h : l.isPlain = true) : openedTable? l.chars = l.table? := by
  cases l with
  | header key =>
    rw [chars, openedTable?, readKey_header h]
    rfl
  | setting key value =>
    rw [openedTable?]
    · rfl
    · exact append_ne_cons (Bool.and_eq_true_iff.1 h).1 rfl _

end Line

theorem withoutKeys_document {ls : List Line} (h : ∀ l ∈ ls, l.isPlain = true)
    (keys : List String) :
    withoutKeys keys (document ls) = document (ls.filter fun l => !l.key?.any (· ∈ keys)) := by
  rw [withoutKeys, document, document, String.toList_ofList, Line.lines_flatMap_chars h,
    List.filter_map, List.flatMap_def]
  congr 3
  refine List.filter_congr fun l hl => ?_
  rw [Function.comp_apply, Line.assignedKey?_chars (h l hl)]

theorem dropTable_settings {ls : List Line} (h : ∀ l ∈ ls, l.isPlain = true)
    (hls : ∀ l ∈ ls, l.table? = none) (name : String) :
    dropTable name true (ls.map Line.chars) = [] := by
  induction ls with
  | nil => rfl
  | cons l ls ih =>
    have hopened : openedTable? l.chars = none :=
      (Line.openedTable?_chars (h l List.mem_cons_self)).trans (hls l List.mem_cons_self)
    simp only [List.map_cons, dropTable, hopened, if_true]
    exact ih (fun m hm => h m (List.mem_cons_of_mem l hm))
      fun m hm => hls m (List.mem_cons_of_mem l hm)

/-- A key with a scalar, as it is written and as it is read. -/
structure Setting where
  key : String
  value : String
  item : Item
  isBareKey : isWord isBareKeyChar key = true
  isScalar : isWord isScalarChar value = true
  reads : Item.ofScalar? value.toList = some item

namespace Setting

def line (s : Setting) : Line := .setting s.key s.value

def entry (s : Setting) : String × Item := (s.key, s.item)

theorem isPlain_line (s : Setting) : s.line.isPlain = true :=
  Bool.and_eq_true_iff.2 ⟨s.isBareKey, s.isScalar⟩

variable (key : String) (hkey : isWord isBareKeyChar key = true)

theorem isWord_toString (n : Int) : isWord isScalarChar (toString n) = true := by
  have hdigits (m : Nat) : (Nat.toDigits 10 m).all isScalarChar = true :=
    List.all_eq_true.2 fun c hc => isScalarChar_of_isDigit (allDigits_toDigits m c hc)
  rw [isWord, toList_toString_int]
  split
  · simp [Nat.toDigits_ne_nil, hdigits]
  · rw [List.all_cons, hdigits]
    rfl

def number (n : Int) (hn : Int64.minValue.toInt ≤ n ∧ n ≤ Int64.maxValue.toInt) : Setting where
  key := key
  value := toString n
  item := .integer n
  isBareKey := hkey
  isScalar := isWord_toString n
  reads := ofScalar?_toString hn

def truth (b : Bool) : Setting where
  key := key
  value := if b then "true" else "false"
  item := .boolean b
  isBareKey := hkey
  isScalar := by cases b <;> rfl
  reads := by cases b <;> rfl

end Setting

def tableDocument (name : String) (ss : List Setting) : String :=
  document (.header name :: ss.map Setting.line)

section

variable {name : String} (hname : isWord isBareKeyChar name = true)
include hname

theorem isPlain_of_mem (ss : List Setting) :
    ∀ l ∈ Line.header name :: ss.map Setting.line, l.isPlain = true := by
  intro l hl
  rcases List.mem_cons.1 hl with rfl | hl
  · exact hname
  · obtain ⟨s, -, rfl⟩ := List.mem_map.1 hl
    exact s.isPlain_line

theorem withoutKeys_tableDocument (keys : List String) (ss : List Setting) :
    withoutKeys keys (tableDocument name ss) =
      tableDocument name (ss.filter fun s => s.key ∉ keys) := by
  rw [tableDocument, withoutKeys_document (isPlain_of_mem hname ss), tableDocument,
    List.filter_cons_of_pos rfl, List.filter_map]
  congr 3
  refine List.filter_congr fun s _ => ?_
  simp [Setting.line, Line.key?]

theorem withoutTable_tableDocument (ss : List Setting) :
    withoutTable name (tableDocument name ss) = "" := by
  have hplain := isPlain_of_mem hname ss
  have hopened : openedTable? (Line.header name).chars = some name :=
    Line.openedTable?_chars hname
  have hrest : dropTable name true ((ss.map Setting.line).map Line.chars) = [] := by
    refine dropTable_settings (fun l hl => hplain l (List.mem_cons_of_mem _ hl)) ?_ name
    intro l hl
    obtain ⟨s, -, rfl⟩ := List.mem_map.1 hl
    rfl
  rw [withoutTable, tableDocument, document, String.toList_ofList, Line.lines_flatMap_chars hplain,
    List.map_cons, dropTable]
  simp only [hopened, if_true, hrest]
  rfl

end

/-- What has been read below the header of a table. -/
def Reading.below (name : String) (entries : Entries) : Reading :=
  ⟨⟨.header, [(name, .table .header entries)]⟩, [name]⟩

theorem read_header (name : String) :
    (Line.header name).read Reading.start = some (.below name []) := rfl

theorem read_setting {s : Setting} {entries : Entries} (h : entries.lookup s.key = none)
    (name : String) :
    s.line.read (.below name entries) = some (.below name (entries ++ [s.entry])) := by
  have hadd : Table.insert [] s.key s.item ⟨.header, entries⟩ =
      some ⟨.header, entries ++ [s.entry]⟩ := by
    simp [Table.insert, Table.updateAt, Table.addNew, Table.find?, h, Table.add, Setting.entry]
  simp [Setting.line, Line.read, s.reads, Reading.insert, Reading.below, Table.updateAt,
    Table.find?, hadd, Table.replace]

theorem read_settings {ss : List Setting} {entries : Entries}
    (hnodup : (ss.map Setting.key).Nodup) (hnew : ∀ s ∈ ss, entries.lookup s.key = none)
    (name : String) :
    (ss.map Setting.line).foldlM (fun d (l : Line) => l.read d) (Reading.below name entries) =
      some (.below name (entries ++ ss.map Setting.entry)) := by
  induction ss generalizing entries with
  | nil => simp
  | cons s ss ih =>
    obtain ⟨hs, hss⟩ := List.nodup_cons.1 hnodup
    rw [List.map_cons, List.foldlM_cons, read_setting (hnew s List.mem_cons_self),
      Option.bind_eq_bind, Option.bind_some, ih hss, List.append_assoc]
    · rfl
    · intro t ht
      have hne : t.key ≠ s.key := fun he => hs (he ▸ List.mem_map_of_mem ht)
      rw [List.lookup_append, hnew t (List.mem_cons_of_mem s ht)]
      simp [Setting.entry, List.lookup_cons, beq_eq_false_iff_ne.2 hne]

/-- The document of a table is read as that table. -/
theorem ofText?_tableDocument {name : String} (hname : isWord isBareKeyChar name = true)
    {ss : List Setting} (hnodup : (ss.map Setting.key).Nodup) :
    Table.ofText? (tableDocument name ss) =
      some ⟨.header, [(name, .table .header (ss.map Setting.entry))]⟩ := by
  rw [tableDocument, ofText?_document (isPlain_of_mem hname ss), List.foldlM_cons, read_header,
    Option.bind_eq_bind, Option.bind_some, read_settings hnodup fun s _ => rfl]
  rfl

end Deferred.Toml
