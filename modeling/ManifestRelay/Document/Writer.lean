/-!
# Writing documents

Texts stand between quotes.  Quotes, backslashes and control characters are
escaped; everything else stands for itself.
-/

namespace ManifestRelay.Document

def fourDigits (n : Nat) : List Char :=
  [n / 4096 % 16, n / 256 % 16, n / 16 % 16, n % 16].map Nat.digitChar

def writeChar (c : Char) : List Char :=
  match c with
  | '"' => ['\\', '"']
  | '\\' => ['\\', '\\']
  | '\x08' => ['\\', 'b']
  | '\x0c' => ['\\', 'f']
  | '\n' => ['\\', 'n']
  | '\r' => ['\\', 'r']
  | '\t' => ['\\', 't']
  | c => if c.toNat < 0x20 then '\\' :: 'u' :: fourDigits c.toNat else [c]

def writeText (text : String) : String := String.ofList ('"' :: text.toList.flatMap writeChar ++ ['"'])

def writeInteger (n : Int) : String := toString n

/-- An object whose values are written already. -/
def writeObject (members : List (String × String)) : String :=
  "\x7b" ++ ",".intercalate (members.map fun (name, value) => writeText name ++ ":" ++ value) ++ "\x7d"

end ManifestRelay.Document
