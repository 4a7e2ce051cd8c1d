import Deferred.Element

/-!
# Storage of dense vectors

A `Store` keeps one row of cells per kind of element. Cells are only ever added, so an address stays
good; a cell records its elements, its attributes and whether an owner has claimed it.
-/
set_option autoImplicit false

namespace Deferred

/-- What a vector may carry beside its elements. -/
structure Attributes where
  names : Option (List (Option String))
  dim : Option (List Nat)
  deriving DecidableEq, Repr

namespace Attributes

def isEmpty (a : Attributes) : Bool := a.names.isNone && a.dim.isNone

def nonEmpty? (a : Attributes) : Option Attributes := if a.isEmpty then none else some a

def nameAt (a : Attributes) (i : Nat) : Option String := (a.names.bind (·[i]?)).join

end Attributes

/-- A count of claims that stays at its greatest value once there. -/
structure Marks where
  count : UInt32
  deriving DecidableEq, Repr

namespace Marks

def none : Marks := ⟨0⟩

def add (m : Marks) : Marks := if m.count + 1 = 0 then m else ⟨m.count + 1⟩

def any (m : Marks) : Bool := m.count ≠ 0

theorem any_none : none.any = false := rfl

theorem any_add (m : Marks) : m.add.any = true := by
  by_cases h : m.count + 1 = 0
  · have : m.count ≠ 0 := fun h0 => by simp [h0] at h
    simp [add, any, h, this]
  · simp [add, any, h]

end Marks

inductive Contents (α : Type) where
  | scalar (value : α)
  | block (values : Array α)

/-- A read outside a vector, as the vector that refused it saw it. -/
inductive RangeFault where
  | scalar (index : Nat)
  | block (size index : Nat)
  | sequence (index : Nat)
  | exclusion (index : Nat)
  deriving DecidableEq, Repr

def RangeFault.message : RangeFault → String
  | scalar i => "index " ++ toString i ++ " out of bounds for scalar"
  | block n i =>
    "index out of bounds: the len is " ++ toString n ++ " but the index is " ++ toString i
  | sequence i => "index " ++ toString i ++ " out of bounds for sequence"
  | exclusion i => "index " ++ toString i ++ " out of bounds for exclusion"

namespace Contents

variable {α : Type}

def size : Contents α → Nat
  | scalar _ => 1
  | block xs => xs.size

def read : Contents α → Nat → Except RangeFault α
  | scalar x, i => if i = 0 then .ok x else .error (.scalar i)
  | block xs, i => if h : i < xs.size then .ok xs[i] else .error (.block xs.size i)

/-- Writes to a block in place; a scalar is never written. -/
def write : Contents α → Nat → α → Contents α
  | scalar x, _, _ => scalar x
  | block xs, i, y => block (xs.setIfInBounds i y)

def isBlock : Contents α → Bool
  | scalar _ => false
  | block _ => true

/-- One element is kept as a scalar and any other number as a block. -/
def ofList : List α → Contents α
  | [x] => scalar x
  | xs => block xs.toArray

end Contents

structure Cell (α : Type) where
  contents : Contents α
  attributes : Option Attributes
  marks : Marks

/-- The cell behind an address that was never handed out. -/
def Cell.vacant {α : Type} : Cell α := ⟨.block #[], none, .none⟩

structure Address (k : Kind) where
  index : Nat
  deriving DecidableEq, Repr

/-- Addresses of all kinds are compared by kind and index. -/
instance : DecidableEq (Σ k, Address k) := fun ⟨j, ⟨m⟩⟩ ⟨k, ⟨n⟩⟩ =>
  decidable_of_iff (j = k ∧ m = n)
    ⟨fun ⟨hk, hn⟩ => by subst hk; subst hn; rfl, fun h => by cases h; exact ⟨rfl, rfl⟩⟩

structure Store where
  ints : Array (Cell Int32)
  doubles : Array (Cell Double)
  logicals : Array (Cell Logical)

namespace Store

variable {k : Kind}

def empty : Store := ⟨#[], #[], #[]⟩

def row (st : Store) : (k : Kind) → Array (Cell k.Elem)
  | .int => st.ints
  | .double => st.doubles
  | .logical => st.logicals

def withRow (st : Store) : (k : Kind) → Array (Cell k.Elem) → Store
  | .int, cells => { st with ints := cells }
  | .double, cells => { st with doubles := cells }
  | .logical, cells => { st with logicals := cells }

def cell (st : Store) (a : Address k) : Cell k.Elem := (st.row k)[a.index]?.getD Cell.vacant

def modify (st : Store) (a : Address k) (f : Cell k.Elem → Cell k.Elem) : Store :=
  st.withRow k ((st.row k).modify a.index f)

def alloc (st : Store) (contents : Contents k.Elem) (attributes : Option Attributes) :
    Address k × Store :=
  (⟨(st.row k).size⟩, st.withRow k ((st.row k).push ⟨contents, attributes, .none⟩))

def mark (st : Store) (a : Address k) : Store :=
  st.modify a fun c => { c with marks := c.marks.add }

/-- Writes one element of a block in place. -/
def write (st : Store) (a : Address k) (i : Nat) (x : k.Elem) : Store :=
  st.modify a fun c => { c with contents := c.contents.write i x }

theorem row_withRow (st : Store) (cells : Array (Cell k.Elem)) :
    (st.withRow k cells).row k = cells := by
  cases k <;> rfl

theorem row_withRow_of_ne (st : Store) {j : Kind} (cells : Array (Cell k.Elem)) (h : j ≠ k) :
    (st.withRow k cells).row j = st.row j := by
  cases j <;> cases k <;> simp_all [row, withRow]

theorem cell_alloc_self (st : Store) (contents : Contents k.Elem)
    (attributes : Option Attributes) :
    (st.alloc contents attributes).2.cell (st.alloc contents attributes).1 =
      ⟨contents, attributes, .none⟩ := by
  simp [alloc, cell, row_withRow]

theorem cell_alloc_of_lt (st : Store) {j : Kind} (contents : Contents k.Elem)
    (attributes : Option Attributes) {a : Address j} (h : a.index < (st.row j).size) :
    (st.alloc contents attributes).2.cell a = st.cell a := by
  by_cases hj : j = k
  · subst hj
    simp [alloc, cell, row_withRow, Array.getElem?_push_lt h, h]
  · simp [alloc, cell, row_withRow_of_ne _ _ hj]

theorem size_row_alloc_self (st : Store) (contents : Contents k.Elem)
    (attributes : Option Attributes) :
    ((st.alloc contents attributes).2.row k).size = (st.row k).size + 1 := by
  simp [alloc, row_withRow]

theorem cell_modify_self (st : Store) (f : Cell k.Elem → Cell k.Elem) {a : Address k}
    (h : a.index < (st.row k).size) : (st.modify a f).cell a = f (st.cell a) := by
  simp [modify, cell, row_withRow, h, Array.getElem_modify_self]

theorem cell_modify_of_ne (st : Store) (a : Address k) (f : Cell k.Elem → Cell k.Elem) {j : Kind}
    {b : Address j} (h : (⟨j, b⟩ : Σ k, Address k) ≠ ⟨k, a⟩) :
    (st.modify a f).cell b = st.cell b := by
  by_cases hj : j = k
  · subst hj
    have hi : a.index ≠ b.index := fun hi => h (by cases a; cases b; simp_all)
    simp [modify, cell, row_withRow, Array.getElem?_modify, hi]
  · simp [modify, cell, row_withRow_of_ne _ _ hj]

theorem size_row_modify (st : Store) (a : Address k) (f : Cell k.Elem → Cell k.Elem) (j : Kind) :
    ((st.modify a f).row j).size = (st.row j).size := by
  by_cases hj : j = k
  · subst hj; simp [modify, row_withRow]
  · simp [modify, row_withRow_of_ne _ _ hj]

end Store

end Deferred
