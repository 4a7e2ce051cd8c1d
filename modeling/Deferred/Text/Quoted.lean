import Deferred.Text.Extending
import Deferred.Text.Unprintable

set_option autoImplicit false

namespace Deferred.Text

def hexCode (c : Char) : List Char := Nat.toDigits 16 c.toNat

def encodeChar (c : Char) : List Char :=
  match c with
  | '\x00' => ['\\', '0']
  | '\t' => ['\\', 't']
  | '\r' => ['\\', 'r']
  | '\n' => ['\\', 'n']
  | '\\' => ['\\', '\\']
  | '"' => ['\\', '"']
  | c =>
    if isExtending c || isUnprintable c then '\\' :: 'u' :: '\x7b' :: (hexCode c ++ ['\x7d'])
    else [c]

def quoted (s : String) : String :=
  String.ofList ('"' :: (s.toList.flatMap encodeChar ++ ['"']))

end Deferred.Text
