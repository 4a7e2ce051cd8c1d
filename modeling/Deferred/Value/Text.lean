import Deferred.Heap

set_option autoImplicit false

namespace Deferred

def commaSeparated (texts : List String) : String := String.intercalate ", " texts

def labelledText (label : Option Symbol) (text : String) : String :=
  match label with
  | some name => name.name ++ " = " ++ text
  | none => text

namespace Heap

mutual

def valueText (h : Heap) : Value → String
  | .null => "NULL"
  | .vector v => v.text h.store
  | .symbol name => name.name
  | .language n => nodeText h n
  | .promise _ _ _ => "<promise>"
  | .bundle _ => "<...>"
  | .list (.plain vs) => "list(" ++ commaSeparated (valueTexts h vs) ++ ")"
  | .list (.labelled es) => "list(" ++ commaSeparated (entryTexts h es) ++ ")"
  | .environment id => if h.isGlobal id then "<environment: R_GlobalEnv>" else "<environment>"
  | .closure _ formals body _ =>
    "function(" ++ commaSeparated (formalTexts h formals) ++ ") " ++ nodeText h body

def nodeText (h : Heap) : Expression → String
  | .constant v => valueText h v
  | .symbol name => name.name
  | .call f as => f.name ++ "(" ++ commaSeparated (argumentTexts h as) ++ ")"
  | .block ss => "\x7b" ++ String.intercalate "; " (nodeTexts h ss) ++ "\x7d"
  | .ifElse c t none => "if (" ++ nodeText h c ++ ") " ++ nodeText h t
  | .ifElse c t (some e) =>
    "if (" ++ nodeText h c ++ ") " ++ nodeText h t ++ " else " ++ nodeText h e
  | .whileLoop c b => "while (" ++ nodeText h c ++ ") " ++ nodeText h b
  | .repeatLoop b => "repeat " ++ nodeText h b
  | .forLoop x s b => "for (" ++ x.name ++ " in " ++ nodeText h s ++ ") " ++ nodeText h b
  | .function fs b => "function(" ++ commaSeparated (formalTexts h fs) ++ ") " ++ nodeText h b
  | .assign x v isSuper => x.name ++ (if isSuper then " <<- " else " <- ") ++ nodeText h v
  | .binary op l r =>
    if op.isTight then nodeText h l ++ op.token ++ nodeText h r
    else nodeText h l ++ " " ++ op.token ++ " " ++ nodeText h r
  | .unary op x => op.token ++ nodeText h x
  | .index b as true => nodeText h b ++ "[[" ++ commaSeparated (argumentTexts h as) ++ "]]"
  | .index b as false => nodeText h b ++ "[" ++ commaSeparated (argumentTexts h as) ++ "]"
  | .field b x => nodeText h b ++ "$" ++ x.name
  | .nextLoop => "next"
  | .breakLoop => "break"

def argumentTexts (h : Heap) : List (Argument Expression) → List String
  | [] => []
  | ⟨name, none⟩ :: as => labelledText name "" :: argumentTexts h as
  | ⟨name, some n⟩ :: as => labelledText name (nodeText h n) :: argumentTexts h as

def nodeTexts (h : Heap) : List Expression → List String
  | [] => []
  | n :: ns => nodeText h n :: nodeTexts h ns

def formalTexts (h : Heap) : List (Formal Expression) → List String
  | [] => []
  | ⟨name, none⟩ :: fs => name.name :: formalTexts h fs
  | ⟨name, some n⟩ :: fs => labelledText (some name) (nodeText h n) :: formalTexts h fs

def valueTexts (h : Heap) : List Value → List String
  | [] => []
  | v :: vs => valueText h v :: valueTexts h vs

def entryTexts (h : Heap) : List (Entry Value) → List String
  | [] => []
  | ⟨label, v⟩ :: es => labelledText label (valueText h v) :: entryTexts h es

end

/-- An argument with neither label nor value has an empty text. -/
def argumentText (h : Heap) (a : Argument Expression) : String :=
  labelledText a.name ((a.value.map (nodeText h)).getD "")

end Heap

end Deferred
