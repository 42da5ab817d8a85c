import ManifestRelay.Text.Octet
import ManifestRelay.Text.Utf8

/-!
# Bytes of a location

A location is written in few characters.  A byte that is not written as itself
is written as `%` and its two digits in base sixteen.
-/

namespace ManifestRelay.Http

open Text

def isAlphanumeric (c : Char) : Bool := c.isDigit || c.isAlpha

def upperDigit (n : Nat) : Char := (Nat.digitChar n).toUpper

def escapeByte (b : UInt8) : List Char :=
  ['%', upperDigit (b.toNat / 16), upperDigit (b.toNat % 16)]

/-- Write a character as itself if it may be kept, and by its bytes otherwise. -/
def escapeChar (keep : Char → Bool) (c : Char) : List Char :=
  if keep c then [c] else (Utf8.encodeChar c).flatMap escapeByte

def escape (keep : Char → Bool) (text : List Char) : List Char := text.flatMap (escapeChar keep)

def isGraphic (c : Char) : Bool := '!' ≤ c && c ≤ '~'

def keepsInPath (c : Char) : Bool := isGraphic c && !"\"#<>?`\x7b\x7d".contains c

def keepsInQuery (c : Char) : Bool := isGraphic c && !"\"#<>'".contains c

def keepsInLogin (c : Char) : Bool := keepsInPath c && !"/:;=@[\\]^|".contains c

/-- Characters that a text keeps whose parts nobody knows. -/
def keepsInOpaque (c : Char) : Bool := isGraphic c || c = ' '

def keepsInForm (c : Char) : Bool := isAlphanumeric c || "*-._".contains c

/-- Write a field of a form, in which a blank is a plus. -/
def escapeForm (text : List Char) : List Char :=
  (escape (fun c => keepsInForm c || c = ' ') text).map fun c => if c = ' ' then '+' else c

def escaped? (a b c : UInt8) : Option UInt8 := do
  if a != 0x25 then none
  return UInt8.ofNat (16 * (← hexValue? b) + (← hexValue? c))

/-- Read bytes some of which are written by their numbers. -/
def unescape : List UInt8 → List UInt8
  | a :: b :: c :: rest =>
      match escaped? a b c with
      | some byte => byte :: unescape rest
      | none => a :: unescape (b :: c :: rest)
  | bytes => bytes

def unescapeText? (text : List Char) : Option (List Char) :=
  Utf8.decode? (unescape (Utf8.encode text))

end ManifestRelay.Http
