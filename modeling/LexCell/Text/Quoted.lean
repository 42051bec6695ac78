import LexCell.Text.Printable

/-!
# Quoted text

A text between double quotes, on one line whatever it contains. Quotes and backslashes get a
backslash, four control characters have letters of their own, and what cannot be seen by itself is
written by its code point in hexadecimal. All other characters stand for themselves.
-/

namespace LexCell.Text

/-- A code point in braces, in hexadecimal without leading zeros. -/
def codePoint (c : Char) : List Char :=
  ['\\', 'u', '\x7b'] ++ Nat.toDigits 16 c.toNat ++ ['\x7d']

def escape (c : Char) : List Char :=
  match c with
  | '\x00' => ['\\', '0']
  | '\t' => ['\\', 't']
  | '\n' => ['\\', 'n']
  | '\r' => ['\\', 'r']
  | '"' => ['\\', '"']
  | '\\' => ['\\', '\\']
  -- An extending character would be drawn onto the quote or character before it.
  | c => if isVisible c && !isExtending c then [c] else codePoint c

def quote (s : String) : String :=
  String.ofList ('"' :: s.toList.flatMap escape ++ ['"'])

end LexCell.Text
