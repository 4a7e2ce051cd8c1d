import Deferred.Double

/-!
# Formats of documents

The library neither reads nor writes documents itself: it tells a `Format` the fields of its records
and leaves the rest to it. `Format.Lawful` is what is documented of the format that it is used with,
as far as anything rests on it.
-/
set_option autoImplicit false

namespace Deferred

/-- What a document holds. -/
inductive Data where
  | string (s : String)
  | integer (n : Int)
  | float (x : Double)
  | boolean (b : Bool)
  | dateTime
  | array (items : List Data)
  | table (entries : List (String × Data))

/-- A type whose values are turned into data and, unless there is a reason not to, back. -/
structure Codec (α : Type) where
  encode : α → Data
  decode : Data → Except String α

structure RecordField (σ : Type) where
  key : String
  encode : σ → Data
  decode : Data → σ → Except String σ

namespace RecordField

variable {σ α : Type}

def of (key : String) (codec : Codec α) (get : σ → α) (set : α → σ → σ) : RecordField σ where
  key := key
  encode r := codec.encode (get r)
  decode d r := (codec.decode d).map (set · r)

/-- The record with what a table says of the field, or as it is if the table does not name it. -/
def decodeFrom (entries : List (String × Data)) (f : RecordField σ) (r : σ) : Except String σ :=
  match entries.lookup f.key with
  | some d => f.decode d r
  | none => .ok r

end RecordField

/-- A type of records of which a document need only name what is not standard. -/
structure Layout (σ : Type) where
  standard : σ
  fields : List (RecordField σ)
  nodup : (fields.map RecordField.key).Nodup

namespace Layout

variable {σ : Type} (L : Layout σ)

def encode (r : σ) : List (String × Data) := L.fields.map fun f => (f.key, f.encode r)

def decode (entries : List (String × Data)) : Except String σ :=
  L.fields.foldlM (fun r f => f.decodeFrom entries r) L.standard

end Layout

/-- A reader and a writer of documents, and how sizes, flags and records are turned into data. -/
structure Format where
  read : String → Except String Data
  write : Data → Except String String
  size : Codec UInt64
  flag : Codec Bool
  record {σ : Type} : Layout σ → Codec σ

def isBareKeyChar (c : Char) : Bool :=
  ('0' ≤ c && c ≤ '9') || ('a' ≤ c && c ≤ 'z') || ('A' ≤ c && c ≤ 'Z') || c = '_' || c = '-'

/-- Keys that need no quotes. -/
def isBareKey (key : String) : Bool := !key.toList.isEmpty && key.toList.all isBareKeyChar

namespace Data

/-- Numbers and truth values stand on the line of their key. -/
def isSimple : Data → Bool
  | integer _ => true
  | boolean _ => true
  | _ => false

/-- Integers of documents have 64 bits and a sign. -/
def inRange : Data → Bool
  | integer n => decide (Int64.minValue.toInt ≤ n ∧ n ≤ Int64.maxValue.toInt)
  | _ => true

end Data

/-- A document of one table of simple settings under bare keys, none of which stands twice. -/
structure SettingsTable where
  name : String
  settings : List (String × Data)
  isBareKey_name : isBareKey name = true
  isBareKey_of_mem : ∀ s ∈ settings, isBareKey s.1 = true
  isSimple_of_mem : ∀ s ∈ settings, s.2.isSimple = true
  nodup : (settings.map Prod.fst).Nodup

namespace SettingsTable

variable (t : SettingsTable)

def data : Data := .table [(t.name, .table t.settings)]

def without (keys : List String) : SettingsTable where
  name := t.name
  settings := t.settings.filter fun s => s.1 ∉ keys
  isBareKey_name := t.isBareKey_name
  isBareKey_of_mem s hs := t.isBareKey_of_mem s (List.mem_filter.1 hs).1
  isSimple_of_mem s hs := t.isSimple_of_mem s (List.mem_filter.1 hs).1
  nodup := t.nodup.sublist (List.filter_sublist.map _)

end SettingsTable

structure Format.Lawful (F : Format) : Prop where
  /-- Integers out of range are refused when they are written, and nothing else is. -/
  isOk_write : ∀ t : SettingsTable, (F.write t.data).isOk = t.settings.all fun s => s.2.inRange
  /-- What has been written is read back. -/
  read_of_write : ∀ (t : SettingsTable) (text : String),
    F.write t.data = .ok text → F.read text = .ok t.data
  encode_size : ∀ n, F.size.encode n = .integer n.toNat
  decode_size : ∀ n : UInt64, F.size.decode (.integer n.toNat) = .ok n
  encode_flag : ∀ b, F.flag.encode b = .boolean b
  decode_flag : ∀ b, F.flag.decode (.boolean b) = .ok b
  encode_record : ∀ {σ : Type} (L : Layout σ) (r : σ), (F.record L).encode r = .table (L.encode r)
  /-- A record is made of the fields that a table names, and of the standard ones. -/
  decode_record : ∀ {σ : Type} (L : Layout σ) (entries : List (String × Data)) (r : σ),
    (entries.map Prod.fst).Nodup → L.decode entries = .ok r →
      (F.record L).decode (.table entries) = .ok r

/-- A way to delete keys or a table from the text of a document. -/
structure Deletion where
  ofKeys : List String → String → String
  ofTable : String → String → String

/-- Of a written document, the format reads what has not been deleted. -/
structure Deletion.Lawful (D : Deletion) (F : Format) : Prop where
  read_ofKeys : ∀ (t : SettingsTable) (keys : List String) (text : String),
    F.write t.data = .ok text → F.read (D.ofKeys keys text) = .ok (t.without keys).data
  read_ofTable : ∀ (t : SettingsTable) (text : String),
    F.write t.data = .ok text → F.read (D.ofTable t.name text) = .ok (.table [])

end Deferred
