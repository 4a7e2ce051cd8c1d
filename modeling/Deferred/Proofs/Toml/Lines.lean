import Deferred.Proofs.Toml.Decimal
import Deferred.Toml.Format

set_option autoImplicit false

namespace Deferred.Toml

/-- A word of characters of one sort; none is empty. -/
def isWord (p : Char → Bool) (s : String) : Bool := !s.toList.isEmpty && s.toList.all p

theorem all_of_isWord {p : Char → Bool} {s : String} (h : isWord p s = true) :
    s.toList.all p = true := (Bool.and_eq_true_iff.1 h).2

theorem exists_cons_of_isWord {p : Char → Bool} {s : String} (h : isWord p s = true) :
    ∃ c cs, s.toList = c :: cs ∧ p c = true := by
  rw [isWord, Bool.and_eq_true] at h
  cases hs : s.toList with
  | nil => simp [hs] at h
  | cons c cs =>
    rw [hs, List.all_cons, Bool.and_eq_true] at h
    exact ⟨c, cs, rfl, h.2.1⟩

theorem append_ne_cons {p : Char → Bool} {s : String} (h : isWord p s = true) {c : Char}
    (hc : p c = false) (r r' : List Char) : s.toList ++ r ≠ c :: r' := by
  obtain ⟨d, ds, hs, hd⟩ := exists_cons_of_isWord h
  intro he
  rw [hs] at he
  obtain rfl := List.head_eq_of_cons_eq he
  exact Bool.false_ne_true (hc.symm.trans hd)

theorem dropBlanks_word {p : Char → Bool} {s : String} (h : isWord p s = true)
    (hspace : p ' ' = false) (htab : p '\t' = false) (r : List Char) :
    dropBlanks (s.toList ++ r) = s.toList ++ r := by
  obtain ⟨c, cs, hs, hc⟩ := exists_cons_of_isWord h
  have hblank : isBlank c = false := by
    rw [isBlank, Bool.or_eq_false_iff, decide_eq_false_iff_not, decide_eq_false_iff_not]
    refine ⟨?_, ?_⟩ <;> rintro rfl
    · exact Bool.false_ne_true (hspace.symm.trans hc)
    · exact Bool.false_ne_true (htab.symm.trans hc)
  rw [hs, dropBlanks, List.cons_append, List.dropWhile_cons_of_neg (by simp [hblank])]

theorem takeWhile_word {p : Char → Bool} {s : String} (h : isWord p s = true) {c : Char}
    (hc : p c = false) (r : List Char) :
    (s.toList ++ c :: r).takeWhile p = s.toList ∧ (s.toList ++ c :: r).dropWhile p = c :: r := by
  have hall : ∀ d ∈ s.toList, p d = true := List.all_eq_true.1 (all_of_isWord h)
  rw [List.takeWhile_append_of_pos hall, List.dropWhile_append_of_pos hall,
    List.takeWhile_cons_of_neg (by simp [hc]), List.dropWhile_cons_of_neg (by simp [hc]),
    List.append_nil]
  exact ⟨rfl, rfl⟩

theorem dropBlanks_of_not_isBlank {c : Char} (h : isBlank c = false) (r : List Char) :
    dropBlanks (c :: r) = c :: r := by
  rw [dropBlanks, List.dropWhile_cons_of_neg (by simp [h])]

theorem readKey_word {key : String} (h : isWord isBareKeyChar key = true) {c : Char} (r : List Char)
    (hc : isBareKeyChar c = false) (hdot : ∀ s, dropBlanks (c :: r) ≠ '.' :: s) :
    readKey (key.toList ++ c :: r) = some (([], key), dropBlanks (c :: r)) := by
  obtain ⟨htake, hdrop⟩ := takeWhile_word h hc r
  have hpart : readKeyPart (key.toList ++ c :: r) = some (key, c :: r) := by
    rw [readKeyPart]
    · obtain ⟨d, ds, hkey, -⟩ := exists_cons_of_isWord h
      rw [htake, hdrop, if_neg (by simp [hkey]), String.ofList_toList]
    · exact append_ne_cons h rfl _
    · exact append_ne_cons h rfl _
  have hparts (fuel : Nat) : readKeyParts (fuel + 1) (key.toList ++ c :: r) =
      some ([key], dropBlanks (c :: r)) := by
    rw [readKeyParts, dropBlanks_word h rfl rfl, hpart]
    simp only [Option.bind_eq_bind, Option.bind_some]
    rfl
  obtain ⟨fuel, hfuel⟩ : ∃ fuel, (key.toList ++ c :: r).length = fuel + 1 :=
    ⟨key.toList.length + r.length, by rw [List.length_append, List.length_cons, Nat.add_assoc]⟩
  rw [readKey, hfuel, hparts]
  rfl

theorem readKey_header {key : String} (h : isWord isBareKeyChar key = true) (r : List Char) :
    readKey (key.toList ++ ']' :: r) = some (([], key), ']' :: r) := by
  have hblanks : dropBlanks (']' :: r) = ']' :: r := dropBlanks_of_not_isBlank rfl r
  rw [readKey_word h r rfl (by simp [hblanks]), hblanks]

theorem readKey_setting {key : String} (h : isWord isBareKeyChar key = true) (r : List Char) :
    readKey (key.toList ++ ' ' :: '=' :: r) = some (([], key), '=' :: r) := by
  have hblanks : dropBlanks (' ' :: '=' :: r) = '=' :: r := by
    rw [dropBlanks, List.dropWhile_cons_of_pos rfl]
    exact dropBlanks_of_not_isBlank rfl r
  rw [readKey_word h _ rfl (by simp [hblanks]), hblanks]

theorem readValue_word {value : String} (h : isWord isScalarChar value = true)
    (fuel depth : Nat) (r : List Char) :
    readValue (fuel + 1) depth (value.toList ++ '\n' :: r) =
      (Item.ofScalar? value.toList).map (·, '\n' :: r) := by
  obtain ⟨htake, hdrop⟩ := takeWhile_word h (c := '\n') rfl r
  rw [readValue]
  · rw [readScalar, htake, hdrop]
    rfl
  all_goals exact append_ne_cons h rfl _

theorem endLine?_newline (r : List Char) : endLine? ('\n' :: r) = some r := by
  rw [endLine?, dropBlanks_of_not_isBlank rfl]
  rfl

namespace Line

def isPlain : Line → Bool
  | header key => isWord isBareKeyChar key
  | setting key value => isWord isBareKeyChar key && isWord isScalarChar value

def read (l : Line) (d : Reading) : Option Reading :=
  match l with
  | header key => d.openTable [] key
  | setting key value => (Item.ofScalar? value.toList).bind (d.insert [] key)

theorem readLine_chars {l : Line} (h : l.isPlain = true) (d : Reading) (r : List Char) :
    d.readLine (l.chars ++ r) = (l.read d).map (·, r) := by
  cases l with
  | header key =>
    have hchars : (header key).chars ++ r = '[' :: (key.toList ++ ']' :: '\n' :: r) := by
      simp [chars]
    rw [hchars, Reading.readLine]
    · rw [readKey_header h]
      simp only [Option.bind_eq_bind, Option.bind_some, endLine?_newline]
      cases hopen : d.openTable [] key <;> simp [read, hopen]
    · exact append_ne_cons h rfl _
  | setting key value =>
    obtain ⟨hkey, hvalue⟩ := Bool.and_eq_true_iff.1 h
    have hchars : (setting key value).chars ++ r =
        key.toList ++ ' ' :: '=' :: ' ' :: (value.toList ++ '\n' :: r) := by
      simp [chars]
    have hblanks : dropBlanks (' ' :: (value.toList ++ '\n' :: r)) = value.toList ++ '\n' :: r := by
      rw [dropBlanks, List.dropWhile_cons_of_pos rfl]
      exact dropBlanks_word hvalue rfl rfl _
    rw [hchars, Reading.readLine]
    · rw [readKey_setting hkey]
      simp only [Option.bind_eq_bind, Option.bind_some, hblanks, readValue_word hvalue]
      cases hitem : Item.ofScalar? value.toList with
      | none => simp [read, hitem]
      | some item =>
        cases hinsert : d.insert [] key item <;>
          simp [read, hitem, hinsert, endLine?_newline]
    · exact fun s => append_ne_cons hkey rfl _ _
    · exact append_ne_cons hkey rfl _

theorem chars_ne_cons {l : Line} (h : l.isPlain = true) {c : Char} (hc : isBareKeyChar c = false)
    (hbracket : c ≠ '[') (r r' : List Char) : l.chars ++ r ≠ c :: r' := by
  cases l with
  | header key => exact fun he => hbracket (List.head_eq_of_cons_eq he).symm
  | setting key value =>
    rw [chars, List.append_assoc]
    exact append_ne_cons (Bool.and_eq_true_iff.1 h).1 hc _ _

theorem dropBlanks_chars {l : Line} (h : l.isPlain = true) (r : List Char) :
    dropBlanks (l.chars ++ r) = l.chars ++ r := by
  cases l with
  | header key => exact dropBlanks_of_not_isBlank rfl _
  | setting key value =>
    rw [chars, List.append_assoc]
    exact dropBlanks_word (Bool.and_eq_true_iff.1 h).1 rfl rfl _

theorem readLines_chars {l : Line} (h : l.isPlain = true) (fuel : Nat) (d : Reading)
    (r : List Char) :
    Reading.readLines (fuel + 1) d (l.chars ++ r) =
      (l.read d).bind fun d => Reading.readLines fuel d r := by
  rw [Reading.readLines, dropBlanks_chars h]
  split
  next he => cases l <;> simp [chars] at he
  next he => exact absurd he (chars_ne_cons h rfl (by decide) _ _)
  next he => exact absurd he (chars_ne_cons h rfl (by decide) _ _)
  next he => exact absurd he (chars_ne_cons h rfl (by decide) _ _)
  next =>
    rw [readLine_chars h]
    cases l.read d <;> rfl

end Line

theorem readLines_flatMap {ls : List Line} (h : ∀ l ∈ ls, l.isPlain = true) {fuel : Nat}
    (hfuel : ls.length < fuel) (d : Reading) :
    Reading.readLines fuel d (ls.flatMap Line.chars) = ls.foldlM (fun d l => l.read d) d := by
  induction ls generalizing fuel d with
  | nil =>
    obtain ⟨fuel, rfl⟩ : ∃ n, fuel = n + 1 := ⟨fuel - 1, by omega⟩
    rfl
  | cons l ls ih =>
    obtain ⟨fuel, rfl⟩ : ∃ n, fuel = n + 1 := ⟨fuel - 1, by omega⟩
    rw [List.flatMap_cons, Line.readLines_chars (h l List.mem_cons_self), List.foldlM_cons]
    exact congrArg (Option.bind (l.read d)) (funext fun d =>
      ih (fun m hm => h m (List.mem_cons_of_mem l hm)) (by simpa using hfuel) d)

theorem length_lt_length_flatMap (ls : List Line) :
    ls.length < (ls.flatMap Line.chars).length + 1 := by
  induction ls with
  | nil => exact Nat.one_pos
  | cons l ls ih =>
    have hchars : 0 < l.chars.length := 
      List.length_pos_iff.2 (by cases l <;> simp [Line.chars])
    rw [List.flatMap_cons, List.length_append, List.length_cons]
    omega

theorem ofText?_document {ls : List Line} (h : ∀ l ∈ ls, l.isPlain = true) :
    Table.ofText? (document ls) =
      (ls.foldlM (fun d (l : Line) => l.read d) Reading.start).map (·.table) := by
  have hmark : dropMark (ls.flatMap Line.chars) = ls.flatMap Line.chars := by
    rw [dropMark]
    intro r he
    cases ls with
    | nil => simp at he
    | cons l ls =>
      exact Line.chars_ne_cons (h l List.mem_cons_self) rfl (by decide) _ _ he
  rw [Table.ofText?, document, String.toList_ofList, hmark,
    readLines_flatMap h (length_lt_length_flatMap ls)]

end Deferred.Toml
