import Deferred.Toml.Document

/-!
# The format of configuration documents

`Format.toml` reads any document, and writes those of one table of numbers and truth values.
-/
set_option autoImplicit false

namespace Deferred

namespace Toml

mutual

/-- What an item holds, however it is written. -/
def Item.data : Item → Data
  | .string s => .string s
  | .integer n => .integer n
  | .float x => .float x
  | .boolean b => .boolean b
  | .dateTime => .dateTime
  | .array items => .array (dataOfItems items)
  | .inline entries => .table (dataOfEntries entries)
  | .table _ entries => .table (dataOfEntries entries)
  | .tables rows => .array (dataOfRows rows)

def dataOfItems : List Item → List Data
  | [] => []
  | item :: items => item.data :: dataOfItems items

def dataOfEntries : List (String × Item) → List (String × Data)
  | [] => []
  | (key, item) :: entries => (key, item.data) :: dataOfEntries entries

def dataOfRows : List (List (String × Item)) → List Data
  | [] => []
  | row :: rows => .table (dataOfEntries row) :: dataOfRows rows

end

def read (text : String) : Except String Data :=
  match Table.ofText? text with
  | some t => .ok (.table (dataOfEntries t.entries))
  | none => .error "not a document"

/-- A line that opens a table or gives a key a scalar. -/
inductive Line where
  | header (key : String)
  | setting (key value : String)

def Line.chars : Line → List Char
  | header key => '[' :: (key.toList ++ [']', '\n'])
  | setting key value => key.toList ++ ' ' :: '=' :: ' ' :: (value.toList ++ ['\n'])

def document (ls : List Line) : String := String.ofList (ls.flatMap Line.chars)

def scalarText : Data → String
  | .integer n => toString n
  | .boolean b => if b then "true" else "false"
  | _ => ""

def write : Data → Except String String
  | .table [(name, .table settings)] =>
    if settings.all fun s => s.2.isSimple && s.2.inRange then
      .ok (document (.header name :: settings.map fun s => .setting s.1 (scalarText s.2)))
    else .error "unsupported value"
  | _ => .error "unsupported value"

/-- A size is a whole number that is not negative. -/
def decodeSize : Data → Except String UInt64
  | .integer n => if 0 ≤ n then .ok (UInt64.ofNat n.toNat) else .error "invalid value"
  | _ => .error "invalid type"

def decodeFlag : Data → Except String Bool
  | .boolean b => .ok b
  | _ => .error "invalid type"

/-- Fields are given by name in a table or in order in an array. A date names none of them. -/
def decodeRecord {σ : Type} (L : Layout σ) : Data → Except String σ
  | .table entries => L.decode entries
  | .array items => L.decode ((L.fields.map RecordField.key).zip items)
  | .dateTime => .ok L.standard
  | _ => .error "invalid type"

end Toml

def Format.toml : Format where
  read := Toml.read
  write := Toml.write
  size := ⟨fun n => .integer n.toNat, Toml.decodeSize⟩
  flag := ⟨.boolean, Toml.decodeFlag⟩
  record L := ⟨fun r => .table (L.encode r), Toml.decodeRecord L⟩

end Deferred
