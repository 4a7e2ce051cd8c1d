import Deferred.Double

/-!
# Contents of configuration documents

A document is a table. Tables come about in three ways that decide how later lines may add to them,
and `Table.updateAt` is the one walk along a path of keys that keeps to these rules.
-/
set_option autoImplicit false

namespace Deferred.Toml

/-- What brought a table about. -/
inductive Origin where
  /-- A header of its own, or the document; only lines below the header add to it. -/
  | header
  /-- A longer header going through it; it may still get a header of its own. -/
  | implied
  /-- A dotted key; only dotted keys add to it. -/
  | dotted
  deriving DecidableEq, Repr

inductive Item where
  | string (s : String)
  | integer (n : Int)
  | float (x : Double)
  | boolean (b : Bool)
  | dateTime
  | array (items : List Item)
  /-- A table written in braces; nothing can be added to it. -/
  | inline (entries : List (String × Item))
  | table (origin : Origin) (entries : List (String × Item))
  /-- Tables under one repeated header, never none of them. -/
  | tables (rows : List (List (String × Item)))

abbrev Entries := List (String × Item)

structure Table where
  origin : Origin
  entries : Entries

namespace Table

def document : Table := ⟨.header, []⟩

def find? (t : Table) (key : String) : Option Item := t.entries.lookup key

def add (t : Table) (key : String) (item : Item) : Table :=
  { t with entries := t.entries ++ [(key, item)] }

def replace (t : Table) (key : String) (item : Item) : Table :=
  { t with entries := t.entries.map fun e => if e.1 = key then (key, item) else e }

/-- Walks along a path and changes the table at its end. Tables that are not there yet are made on
the way: by a dotted key (`byDots`) or implied by a header. The path leads to the last of repeated
tables, and a dotted key leads into no table with a header of its own. -/
def updateAt (byDots : Bool) (change : Table → Option Table) :
    List String → Table → Option Table
  | [], t => change t
  | key :: path, t =>
    match t.find? key with
    | none => do
      let inner ← updateAt byDots change path ⟨if byDots then .dotted else .implied, []⟩
      return t.add key (.table inner.origin inner.entries)
    | some (.table origin entries) =>
      if byDots ∧ origin = .header then none
      else do
        let inner ← updateAt byDots change path ⟨origin, entries⟩
        return t.replace key (.table inner.origin inner.entries)
    | some (.tables rows) => do
      let last ← rows.getLast?
      let inner ← updateAt byDots change path ⟨.header, last⟩
      return t.replace key (.tables (rows.dropLast ++ [inner.entries]))
    | some _ => none

/-- Adds a key that is not there yet. A dotted key must end in a table of dotted keys, and a plain
one must not. -/
def addNew (key : String) (item : Item) (plain : Bool) (t : Table) : Option Table :=
  if plain = decide (t.origin = .dotted) ∨ (t.find? key).isSome then none
  else some (t.add key item)

def insert (path : List String) (key : String) (item : Item) (t : Table) : Option Table :=
  updateAt true (addNew key item path.isEmpty) path t

def ofPairs : List (List String × String × Item) → Table → Option Table
  | [], t => some t
  | (path, key, item) :: pairs, t => (t.insert path key item).bind (ofPairs pairs)

def headed (key : String) (parent : Table) : Option Table :=
  match parent.find? key with
  | none => some (parent.add key (.table .header []))
  | some (.table .implied entries) => some (parent.replace key (.table .header entries))
  | some _ => none

def repeated (key : String) (parent : Table) : Option Table :=
  match parent.find? key with
  | none => some (parent.add key (.tables [[]]))
  | some (.tables rows) => some (parent.replace key (.tables (rows ++ [[]])))
  | some _ => none

/-- Opens the table of a header: a new one or one that was only implied. -/
def openTable (path : List String) (key : String) (t : Table) : Option Table :=
  updateAt false (headed key) path t

def openRow (path : List String) (key : String) (t : Table) : Option Table :=
  updateAt false (repeated key) path t

end Table

end Deferred.Toml
