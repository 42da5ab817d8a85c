/-!
# Ranges of characters

A set of characters is written as ranges of their numbers in base sixteen,
with blanks between the ranges: `"61-7A E9"` are the small letters and `é`.
-/

namespace ManifestRelay.HostName

abbrev Ranges := List (Nat × Nat)

namespace Ranges

def digitValue (c : Char) : Nat := if c.isDigit then c.toNat - '0'.toNat else c.toNat - 'A'.toNat + 10

def number (digits : List Char) : Nat := digits.foldl (fun n c => 16 * n + digitValue c) 0

def splitWords (text : String) : List (List Char) :=
  (text.toList.splitBy fun a b => a.isWhitespace = b.isWhitespace).filter fun word =>
    !word.any Char.isWhitespace

def rangeOf (word : List Char) : Nat × Nat :=
  let first := word.takeWhile (· != '-')
  match word.drop first.length with
  | [] => (number first, number first)
  | _ :: last => (number first, number last)

def ofText (text : String) : Ranges := (splitWords text).map rangeOf

def contains (ranges : Ranges) (c : Char) : Bool :=
  ranges.any fun (first, last) => first ≤ c.toNat && c.toNat ≤ last

/-- The first key among whose ranges a character is. -/
def find? {κ : Type} (table : List (κ × Ranges)) (c : Char) : Option κ :=
  (table.find? fun (_, ranges) => ranges.contains c).map (·.1)

end Ranges

end ManifestRelay.HostName
