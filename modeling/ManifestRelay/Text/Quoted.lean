import ManifestRelay.Text.Visible

/-!
# Quoted text

Text in messages is quoted so that every character of it can be seen: quotes,
backslashes and the common controls have short escapes, and any other
character that cannot be told apart on its own is written by its number.
-/

namespace ManifestRelay.Text

/-- The digits of a number in base sixteen, in lower case. -/
def hexDigits (n : Nat) : List Char := Nat.toDigits 16 n

def numericEscape (c : Char) : List Char :=
  '\\' :: 'u' :: '\x7b' :: hexDigits c.toNat ++ ['\x7d']

def quotedChar (c : Char) : List Char :=
  match c with
  | '\x00' => ['\\', '0']
  | '\t' => ['\\', 't']
  | '\r' => ['\\', 'r']
  | '\n' => ['\\', 'n']
  | '"' => ['\\', '"']
  | '\\' => ['\\', '\\']
  | c => if !isExtender c && isVisible c then [c] else numericEscape c

def quoted (text : String) : String :=
  String.ofList ('"' :: text.toList.flatMap quotedChar ++ ['"'])

end ManifestRelay.Text
