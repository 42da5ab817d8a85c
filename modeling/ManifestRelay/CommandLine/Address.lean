import ManifestRelay.Binary.Width
import ManifestRelay.CommandLine.Flag

/-!
# Socket addresses

An address is four decimal octets and a port, or eight hexadecimal groups in
brackets and a port; one run of groups that are zero may be left out, and the
last two groups may be written as four octets.
-/

namespace ManifestRelay.CommandLine

/-- Whether a text is a decimal octet without superfluous zeros. -/
def isOctet (text : List Char) : Bool :=
  text.length ≤ 3 && (digits? text).any (· ≤ 255) && (text.length ≤ 1 || text.head? != some '0')

def isOctets (text : List Char) : Bool :=
  let octets := text.splitOn '.'
  octets.length = 4 && octets.all isOctet

def isHexDigit (c : Char) : Bool :=
  c.isDigit || ('a' ≤ c && c ≤ 'f') || ('A' ≤ c && c ≤ 'F')

def isGroup (text : List Char) : Bool :=
  text != [] && text.length ≤ 4 && text.all isHexDigit

/-- Number of groups in a text of groups between colons; `octets` tells whether octets may
stand for the last two. -/
def groupCount (octets : Bool) (text : List Char) : Option Nat :=
  if text = [] then some 0
  else
    let groups := text.splitOn ':'
    let last := groups.getLast?.getD []
    if groups.all isGroup then some groups.length
    else if octets && isOctets last && groups.dropLast.all isGroup then some (groups.length + 1)
    else none

/-- Cut at the first pair of colons. -/
def cutAtGap : List Char → Option (List Char × List Char)
  | ':' :: ':' :: rest => some ([], rest)
  | c :: rest => (cutAtGap rest).map fun (before, after) => (c :: before, after)
  | [] => none

/-- Whether a text is eight groups, some of which may be left out. -/
def isGroups (text : List Char) : Bool :=
  match cutAtGap text with
  | none => groupCount true text = some 8
  | some (before, after) =>
      match groupCount false before, groupCount true after with
      | some m, some n => m + n ≤ 7
      | _, _ => false

def isPort (text : List Char) : Bool := (digits? text).any (Binary.holdsNatural 16)

/-- Whether a text is an address in brackets, with or without the number of its scope. -/
def isScoped (text : List Char) : Bool :=
  isGroups (text.takeWhile (· != '%')) &&
    match text.dropWhile (· != '%') with
    | [] => true
    | _ :: scope => (digits? scope).any (Binary.holdsNatural 32)

def isSocketAddress (text : String) : Bool :=
  match text.toList with
  | '[' :: rest =>
      match rest.dropWhile (· != ']') with
      | ']' :: ':' :: port => isScoped (rest.takeWhile (· != ']')) && isPort port
      | _ => false
  | chars =>
      match chars.splitOn ':' with
      | [host, port] => isOctets host && isPort port
      | _ => false

end ManifestRelay.CommandLine
