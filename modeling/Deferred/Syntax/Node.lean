set_option autoImplicit false

namespace Deferred

structure Symbol where
  name : String
  deriving DecidableEq, Repr

/-- The name of the parameter that takes all remaining arguments. -/
def Symbol.dots : Symbol := ⟨"..."⟩

inductive BinaryOperator where
  | add | sub | mul | div | pow | mod | intDiv | range
  | eq | ne | lt | le | gt | ge
  | and | or | elementAnd | elementOr
  deriving DecidableEq, Repr

namespace BinaryOperator

def token : BinaryOperator → String
  | add => "+"
  | sub => "-"
  | mul => "*"
  | div => "/"
  | pow => "^"
  | mod => "%%"
  | intDiv => "%/%"
  | range => ":"
  | eq => "=="
  | ne => "!="
  | lt => "<"
  | le => "<="
  | gt => ">"
  | ge => ">="
  | and => "&&"
  | or => "||"
  | elementAnd => "&"
  | elementOr => "|"

def all : List BinaryOperator :=
  [add, sub, mul, div, pow, mod, intDiv, range, eq, ne, lt, le, gt, ge, and, or, elementAnd,
    elementOr]

def ofToken? (s : String) : Option BinaryOperator := all.find? (·.token = s)

/-- Written without surrounding blanks, as in `1:3` and `x^2`. -/
def isTight : BinaryOperator → Bool
  | range | pow => true
  | _ => false

theorem ofToken?_token (op : BinaryOperator) : ofToken? op.token = some op := by
  cases op <;> decide

end BinaryOperator

inductive UnaryOperator where
  | neg
  | not
  deriving DecidableEq, Repr

namespace UnaryOperator

def token : UnaryOperator → String
  | neg => "-"
  | not => "!"

def ofToken? (s : String) : Option UnaryOperator := [neg, not].find? (·.token = s)

end UnaryOperator

/-- A place in an argument list or in a bundle: maybe labelled, maybe left empty. -/
structure Argument (ν : Type) where
  name : Option Symbol
  value : Option ν

structure Formal (ν : Type) where
  name : Symbol
  default : Option ν

inductive Node (α : Type) where
  | constant (value : α)
  | symbol (name : Symbol)
  | call (function : Symbol) (arguments : List (Argument (Node α)))
  | block (statements : List (Node α))
  | ifElse (condition thenBranch : Node α) (elseBranch : Option (Node α))
  | whileLoop (condition body : Node α)
  | repeatLoop (body : Node α)
  | forLoop (loopVariable : Symbol) (sequence body : Node α)
  | function (formals : List (Formal (Node α))) (body : Node α)
  | assign (target : Symbol) (value : Node α) (isSuper : Bool)
  | binary (operator : BinaryOperator) (lhs rhs : Node α)
  | unary (operator : UnaryOperator) (operand : Node α)
  /-- `base[arguments]`, or `base[[arguments]]` when exact. -/
  | index (base : Node α) (arguments : List (Argument (Node α))) (exact : Bool)
  | field (base : Node α) (name : Symbol)
  | nextLoop
  | breakLoop

namespace Node

variable {α β : Type}

def symbol? : Node α → Option Symbol
  | symbol name => some name
  | _ => none

def kindName : Node α → String
  | constant _ => "constant"
  | symbol _ => "symbol"
  | call _ _ => "call"
  | block _ => "block"
  | ifElse _ _ _ => "if"
  | whileLoop _ _ => "while"
  | repeatLoop _ => "repeat"
  | forLoop _ _ _ => "for"
  | function _ _ => "function"
  | assign _ _ _ => "assignment"
  | binary _ _ _ => "binary operation"
  | unary _ _ => "unary operation"
  | index _ _ _ => "index"
  | field _ _ => "field access"
  | nextLoop => "next"
  | breakLoop => "break"

end Node

/-- Whether an argument is exactly `...`, labelled or not. -/
def Argument.isDots {α : Type} (a : Argument (Node α)) : Bool :=
  (a.value.bind Node.symbol?) = some Symbol.dots

namespace Node

variable {α β : Type}

mutual

def map (f : α → β) : Node α → Node β
  | constant v => constant (f v)
  | symbol s => symbol s
  | call g as => call g (mapArguments f as)
  | block ss => block (mapNodes f ss)
  | ifElse c t none => ifElse (c.map f) (t.map f) none
  | ifElse c t (some e) => ifElse (c.map f) (t.map f) (some (e.map f))
  | whileLoop c b => whileLoop (c.map f) (b.map f)
  | repeatLoop b => repeatLoop (b.map f)
  | forLoop x s b => forLoop x (s.map f) (b.map f)
  | function fs b => function (mapFormals f fs) (b.map f)
  | assign x v isSuper => assign x (v.map f) isSuper
  | binary op l r => binary op (l.map f) (r.map f)
  | unary op x => unary op (x.map f)
  | index b as exact => index (b.map f) (mapArguments f as) exact
  | field b x => field (b.map f) x
  | nextLoop => nextLoop
  | breakLoop => breakLoop

def mapArguments (f : α → β) : List (Argument (Node α)) → List (Argument (Node β))
  | [] => []
  | ⟨name, none⟩ :: as => ⟨name, none⟩ :: mapArguments f as
  | ⟨name, some n⟩ :: as => ⟨name, some (n.map f)⟩ :: mapArguments f as

def mapNodes (f : α → β) : List (Node α) → List (Node β)
  | [] => []
  | n :: ns => n.map f :: mapNodes f ns

def mapFormals (f : α → β) : List (Formal (Node α)) → List (Formal (Node β))
  | [] => []
  | ⟨name, none⟩ :: fs => ⟨name, none⟩ :: mapFormals f fs
  | ⟨name, some n⟩ :: fs => ⟨name, some (n.map f)⟩ :: mapFormals f fs

end

end Node

end Deferred
