set_option autoImplicit false

namespace Deferred.Toml

def isBlank (c : Char) : Bool := c = ' ' || c = '\t'

/-- Characters that may stand in comments: all but the controls other than the tab. -/
def isCommentChar (c : Char) : Bool := c = '\t' || (' ' ≤ c && c ≠ '\x7f')

def isBasicChar (c : Char) : Bool := isCommentChar c && c ≠ '"' && c ≠ '\\'

def isLiteralChar (c : Char) : Bool := isCommentChar c && c ≠ '\''

def hexDigit? (c : Char) : Option Nat :=
  if '0' ≤ c ∧ c ≤ '9' then some (c.toNat - '0'.toNat)
  else if 'a' ≤ c ∧ c ≤ 'f' then some (c.toNat - 'a'.toNat + 10)
  else if 'A' ≤ c ∧ c ≤ 'F' then some (c.toNat - 'A'.toNat + 10)
  else none

def charOfHex? (digits : List Char) : Option Char := do
  let ds ← digits.mapM hexDigit?
  let code := ds.foldl (fun n d => 16 * n + d) 0
  if code.isValidChar then some (Char.ofNat code) else none

def escaped? : Char → Option Char
  | 'b' => some '\x08'
  | 't' => some '\t'
  | 'n' => some '\n'
  | 'f' => some '\x0c'
  | 'r' => some '\r'
  | '"' => some '"'
  | '\\' => some '\\'
  | _ => none

/-- A character put in front of what a reader gives. -/
def cons? (c : Char) (read : Option (List Char × List Char)) : Option (List Char × List Char) :=
  read.map fun p => (c :: p.1, p.2)

/-- A string between double quotes, on one line: its characters, from behind the opening quote on,
and what comes behind the closing one. -/
def readBasic : List Char → Option (List Char × List Char)
  | [] => none
  | '"' :: r => some ([], r)
  | '\\' :: 'u' :: a :: b :: c :: d :: r =>
    (charOfHex? [a, b, c, d]).bind fun x => cons? x (readBasic r)
  | '\\' :: 'U' :: a :: b :: c :: d :: e :: f :: g :: h :: r =>
    (charOfHex? [a, b, c, d, e, f, g, h]).bind fun x => cons? x (readBasic r)
  | '\\' :: e :: r => (escaped? e).bind fun x => cons? x (readBasic r)
  | c :: r => if isBasicChar c then cons? c (readBasic r) else none

/-- A string between single quotes, on one line. Nothing is escaped in it. -/
def readLiteral : List Char → Option (List Char × List Char)
  | [] => none
  | '\'' :: r => some ([], r)
  | c :: r => if isLiteralChar c then cons? c (readLiteral r) else none

def endsLine (cs : List Char) : Bool :=
  match cs.dropWhile isBlank with
  | '\n' :: _ => true
  | '\r' :: '\n' :: _ => true
  | _ => false

/-- A string between triple double quotes. A backslash at the end of a line takes away all blanks
and line ends behind it (`skipping`), and one or two quotes may stand before the closing ones. -/
def readBasicLines : Bool → List Char → Option (List Char × List Char)
  | _, [] => none
  | _, '"' :: '"' :: '"' :: '"' :: '"' :: r => some (['"', '"'], r)
  | _, '"' :: '"' :: '"' :: '"' :: r => some (['"'], r)
  | _, '"' :: '"' :: '"' :: r => some ([], r)
  | _, '"' :: r => cons? '"' (readBasicLines false r)
  | skipping, '\n' :: r =>
    if skipping then readBasicLines true r else cons? '\n' (readBasicLines false r)
  | skipping, '\r' :: '\n' :: r =>
    if skipping then readBasicLines true r else cons? '\n' (readBasicLines false r)
  | _, '\\' :: 'u' :: a :: b :: c :: d :: r =>
    (charOfHex? [a, b, c, d]).bind fun x => cons? x (readBasicLines false r)
  | _, '\\' :: 'U' :: a :: b :: c :: d :: e :: f :: g :: h :: r =>
    (charOfHex? [a, b, c, d, e, f, g, h]).bind fun x => cons? x (readBasicLines false r)
  | _, '\\' :: e :: r =>
    if endsLine (e :: r) then readBasicLines true (e :: r)
    else (escaped? e).bind fun x => cons? x (readBasicLines false r)
  | skipping, c :: r =>
    if skipping && isBlank c then readBasicLines true r
    else if isBasicChar c then cons? c (readBasicLines false r)
    else none

def readLiteralLines : List Char → Option (List Char × List Char)
  | [] => none
  | '\'' :: '\'' :: '\'' :: '\'' :: '\'' :: r => some (['\'', '\''], r)
  | '\'' :: '\'' :: '\'' :: '\'' :: r => some (['\''], r)
  | '\'' :: '\'' :: '\'' :: r => some ([], r)
  | '\'' :: r => cons? '\'' (readLiteralLines r)
  | '\n' :: r => cons? '\n' (readLiteralLines r)
  | '\r' :: '\n' :: r => cons? '\n' (readLiteralLines r)
  | c :: r => if isLiteralChar c then cons? c (readLiteralLines r) else none

/-- The line end right behind opening triple quotes does not count. -/
def dropFirstLineEnd : List Char → List Char
  | '\n' :: r => r
  | '\r' :: '\n' :: r => r
  | cs => cs

def readString : List Char → Option (List Char × List Char)
  | '"' :: '"' :: '"' :: r => readBasicLines false (dropFirstLineEnd r)
  | '"' :: r => readBasic r
  | '\'' :: '\'' :: '\'' :: r => readLiteralLines (dropFirstLineEnd r)
  | '\'' :: r => readLiteral r
  | _ => none

end Deferred.Toml
