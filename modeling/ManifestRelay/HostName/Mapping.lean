import ManifestRelay.HostName.MappingTable

/-!
# How characters are made alike

Capital letters become small, forms of a letter become the letter, some
characters vanish, and some make a name impossible.
-/

namespace ManifestRelay.HostName

def isAscii (c : Char) : Bool := c ≤ '\x7f'

/-- What runs of characters, found by the first of each, say of a character. -/
def lookupRun {α : Type} (runs : List (Nat × List α)) (c : Char) : Option α :=
  runs.findSome? fun (first, run) => if first ≤ c.toNat then run[c.toNat - first]? else none

def letterRuns : List (Nat × List Char) := letters.map fun (first, run) => (first, run.toList)

def wordRuns : List (Nat × List (List Char)) :=
  words.map fun (first, run) => (first, Ranges.splitWords run)

def smallLetter? (c : Char) : Option Char :=
  alternating.findSome? fun (first, last) =>
    if first ≤ c.toNat && c.toNat ≤ last && (c.toNat - first) % 2 = 0 then
      some (Char.ofNat (c.toNat + 1))
    else none

def shiftedLetter? (c : Char) : Option Char :=
  (Ranges.find? shifted c).map fun distance => Char.ofNat ((c.toNat : Int) + distance).toNat

/-- What a character becomes in the name of a host, unless none may have it. -/
def mapChar? (c : Char) : Option (List Char) :=
  if isAscii c then some [c.toLower]
  else if refused.contains c then none
  else if ignored.contains c then some []
  else
    ((smallLetter? c).or (shiftedLetter? c) |>.or (lookupRun letterRuns c)).map (fun d => [d])
      |>.or (lookupRun wordRuns c) |>.or (some [c])

def mapText? (text : List Char) : Option (List Char) := (text.mapM mapChar?).map List.flatten

end ManifestRelay.HostName
