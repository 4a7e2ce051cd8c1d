import Deferred.Config.Format
import Deferred.Toml.Scalar

/-!
# Reading configuration documents

`Table.ofText?` reads a whole document into its table, or refuses it. Readers of parts take the
characters that are left and give back what they leave. Fuel is measured by the characters: every
two calls of a reader take at least one.
-/
set_option autoImplicit false

namespace Deferred.Toml

/-- Arrays and inline tables nest less deep than this, and keys have fewer parts. -/
def nestingLimit : Nat := 80

def dropBlanks (cs : List Char) : List Char := cs.dropWhile isBlank

/-- Blanks, a comment if there is one, and the end of the line or of the document. -/
def endLine? (cs : List Char) : Option (List Char) :=
  let rest :=
    match dropBlanks cs with
    | '#' :: r => r.dropWhile isCommentChar
    | r => r
  match rest with
  | [] => some []
  | '\n' :: r => some r
  | '\r' :: '\n' :: r => some r
  | _ => none

/-- Drops blanks, line ends and comments that end with their line. -/
def dropTrivia : Bool → List Char → Option (List Char)
  | _, '\n' :: r => dropTrivia false r
  | _, '\r' :: '\n' :: r => dropTrivia false r
  | true, c :: r => if isCommentChar c then dropTrivia true r else none
  | true, [] => none
  | false, '#' :: r => dropTrivia true r
  | false, c :: r => if isBlank c then dropTrivia false r else some (c :: r)
  | false, [] => some []

def readKeyPart (cs : List Char) : Option (String × List Char) :=
  match cs with
  | '"' :: r => (readBasic r).map fun p => (String.ofList p.1, p.2)
  | '\'' :: r => (readLiteral r).map fun p => (String.ofList p.1, p.2)
  | _ =>
    let bare := cs.takeWhile isBareKeyChar
    if bare = [] then none else some (String.ofList bare, cs.dropWhile isBareKeyChar)

def readKeyParts : Nat → List Char → Option (List String × List Char)
  | 0, _ => none
  | fuel + 1, cs => do
    let (part, r) ← readKeyPart (dropBlanks cs)
    match dropBlanks r with
    | '.' :: r =>
      let (parts, r) ← readKeyParts fuel r
      return (part :: parts, r)
    | r => return ([part], r)

/-- A dotted key as the path to it and its last part. -/
def readKey (cs : List Char) : Option ((List String × String) × List Char) := do
  let (parts, r) ← readKeyParts cs.length cs
  let last ← parts.getLast?
  if parts.length < nestingLimit then return ((parts.dropLast, last), r) else none

mutual

/-- A value `depth` collections deep. -/
def readValue : Nat → Nat → List Char → Option (Item × List Char)
  | 0, _, _ => none
  | fuel + 1, depth, cs =>
    match cs with
    | '[' :: r =>
      if depth + 1 < nestingLimit then
        (readItems fuel (depth + 1) r).map fun p => (.array p.1, p.2)
      else none
    | '{' :: r =>
      if depth + 1 < nestingLimit then do
        let (pairs, r) ← readPairs fuel (depth + 1) true r
        let t ← Table.ofPairs pairs ⟨.header, []⟩
        return (.inline t.entries, r)
      else none
    | '"' :: _ => (readString cs).map fun p => (.string (String.ofList p.1), p.2)
    | '\'' :: _ => (readString cs).map fun p => (.string (String.ofList p.1), p.2)
    | _ => readScalar cs

def readItems : Nat → Nat → List Char → Option (List Item × List Char)
  | 0, _, _ => none
  | fuel + 1, depth, cs => do
    match ← dropTrivia false cs with
    | ']' :: r => return ([], r)
    | cs =>
      let (item, r) ← readValue fuel depth cs
      match ← dropTrivia false r with
      | ',' :: r =>
        let (items, r) ← readItems fuel depth r
        return (item :: items, r)
      | ']' :: r => return ([item], r)
      | _ => none

/-- The pairs of an inline table up to its closing brace; only an empty table may close (`first`)
where a pair could stand. -/
def readPairs : Nat → Nat → Bool → List Char →
    Option (List (List String × String × Item) × List Char)
  | 0, _, _, _ => none
  | fuel + 1, depth, first, cs =>
    match first, dropBlanks cs with
    | true, '}' :: r => some ([], r)
    | _, cs => do
      let ((path, key), r) ← readKey cs
      match r with
      | '=' :: r =>
        let (item, r) ← readValue fuel depth (dropBlanks r)
        match dropBlanks r with
        | ',' :: r =>
          let (pairs, r) ← readPairs fuel depth false r
          return ((path, key, item) :: pairs, r)
        | '}' :: r => return ([(path, key, item)], r)
        | _ => none
      | _ => none

end

/-- What has been read of a document, and the keys that lead to the table its lines add to. -/
structure Reading where
  table : Table
  current : List String

namespace Reading

def start : Reading := ⟨Table.document, []⟩

def insert (d : Reading) (path : List String) (key : String) (item : Item) : Option Reading :=
  (Table.updateAt false (Table.insert path key item) d.current d.table).map (⟨·, d.current⟩)

def openTable (d : Reading) (path : List String) (key : String) : Option Reading :=
  (Table.openTable path key d.table).map (⟨·, path ++ [key]⟩)

def openRow (d : Reading) (path : List String) (key : String) : Option Reading :=
  (Table.openRow path key d.table).map (⟨·, path ++ [key]⟩)

/-- Reads a line that is neither blank nor a mere comment. -/
def readLine (d : Reading) (cs : List Char) : Option (Reading × List Char) :=
  match cs with
  | '[' :: '[' :: r => do
    let ((path, key), r) ← readKey r
    match r with
    | ']' :: ']' :: r => return (← d.openRow path key, ← endLine? r)
    | _ => none
  | '[' :: r => do
    let ((path, key), r) ← readKey r
    match r with
    | ']' :: r => return (← d.openTable path key, ← endLine? r)
    | _ => none
  | _ => do
    let ((path, key), r) ← readKey cs
    match r with
    | '=' :: r =>
      let r := dropBlanks r
      let (item, r) ← readValue (2 * r.length + 2) 0 r
      return (← d.insert path key item, ← endLine? r)
    | _ => none

def readLines : Nat → Reading → List Char → Option Reading
  | 0, _, _ => none
  | fuel + 1, d, cs =>
    match dropBlanks cs with
    | [] => some d
    | '\n' :: r => readLines fuel d r
    | '\r' :: '\n' :: r => readLines fuel d r
    | '#' :: r => (endLine? ('#' :: r)).bind (readLines fuel d)
    | cs => (d.readLine cs).bind fun p => readLines fuel p.1 p.2

end Reading

/-- A byte order mark before a document does not count. -/
def dropMark : List Char → List Char
  | '\ufeff' :: r => r
  | cs => cs

/-- The table that a document describes. -/
def Table.ofText? (text : String) : Option Table :=
  let cs := dropMark text.toList
  (Reading.start.readLines (cs.length + 1) cs).map (·.table)

end Deferred.Toml
