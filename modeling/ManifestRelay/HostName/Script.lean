import ManifestRelay.HostName.Composition
import ManifestRelay.HostName.ScriptTable

/-!
# Labels that can be read

A label can be read if its marks and joiners stand where they have an effect,
and if its letters run in one direction wherever the name has letters that run
from right to left.
-/

namespace ManifestRelay.HostName

def isMark (c : Char) : Bool := markings.contains c || spacings.contains c

/-! ### Joiners -/

def separatingJoiner : Char := '\u200c'

def bindingJoiner : Char := '\u200d'

/-- Whether letters on both sides of a place join, but for what is put between them. -/
def joinsAcross (before after : List Char) : Bool :=
  (before.find? fun c => !markings.contains c).any joinsOnward.contains &&
    (after.find? fun c => !markings.contains c).any joinsBack.contains

/-- Whether joiners have an effect; `before` holds the characters before, latest first. -/
def joinersCount (before : List Char) : List Char → Bool
  | [] => true
  | c :: rest =>
      let silenced := before.head?.any fun d => markClass d = silencing
      let counts :=
        if c = separatingJoiner then silenced || joinsAcross before rest
        else if c = bindingJoiner then silenced
        else true
      counts && joinersCount (c :: before) rest

/-! ### Directions -/

inductive Direction where
  | left
  | right
  | arabicDigit
  | digit
  | neutral
  | marking
deriving DecidableEq, Repr

def directionOf (c : Char) : Direction :=
  if leftward.contains c then .left
  else if arabicDigits.contains c then .arabicDigit
  else if commonDigits.contains c then .digit
  else if neutrals.contains c then .neutral
  else if markings.contains c then .marking
  else .right

def runsLeft (label : List Char) : Bool :=
  label.any fun c => directionOf c = .left || directionOf c = .arabicDigit

/-- The last direction before marks at the end. -/
def lastDirection (directions : List Direction) : Option Direction :=
  directions.reverse.find? (· != .marking)

def runsOneWay (label : List Char) : Bool :=
  let directions := label.map directionOf
  match directions with
  | [] => true
  | .left :: _ =>
      directions.all (· != .right) &&
        !(directions.contains .digit && directions.contains .arabicDigit) &&
        (lastDirection directions).any ([.left, .digit, .arabicDigit].contains ·)
  | .right :: _ =>
      directions.all (fun d => d != .left && d != .arabicDigit) &&
        (lastDirection directions).any ([.right, .digit].contains ·)
  | _ => false

end ManifestRelay.HostName
