import ManifestRelay.HostName.Punycode
import ManifestRelay.HostName.Script

/-!
# Names of hosts

A name is a list of labels between dots.  Whatever script it is given in, a
name that can be one is written in small letters of ASCII; two names of a host
are the same if they are written the same.
-/

namespace ManifestRelay.HostName

/-- What a label starts with that is not written as it reads. -/
def encodedMark : List Char := "xn--".toList

/-- Whether a label reads as others do once they are made alike. -/
def isUniform (label : List Char) : Bool :=
  mapText? label = some label && normalForm label = label

/-- The label that is meant by one that may be written in ASCII. -/
def meantLabel? (label : List Char) : Option (List Char) :=
  if encodedMark.isPrefixOf label then do
    let text := label.drop encodedMark.length
    let meant ← decodeLabel? text
    if text.getLast? != some '-' && !meant.all isAscii && isUniform meant then some meant else none
  else some label

/-- Whether a label beyond ASCII begins with a letter, and its joiners have an effect. -/
def isReadable (label : List Char) : Bool :=
  label.all isAscii || (!(label.head?.any isMark) && joinersCount [] label)

def writtenLabel (label : List Char) : List Char :=
  if label.all isAscii then label else encodedMark ++ encodeLabel label

def isForbidden (c : Char) : Bool := c ≤ ' ' || c = '\x7f' || "%#/:<>?@[\\]^|".contains c

/-- A name in ASCII, if it can be a name. -/
def toAscii? (name : List Char) : Option String := do
  let labels ← ((normalForm (← mapText? name)).splitOn '.').mapM meantLabel?
  let oneWay := !labels.any runsLeft || labels.all runsOneWay
  let written := List.intercalate ['.'] (labels.map writtenLabel)
  if labels.all isReadable && oneWay && !written.any isForbidden then
    some (String.ofList written)
  else none

end ManifestRelay.HostName
