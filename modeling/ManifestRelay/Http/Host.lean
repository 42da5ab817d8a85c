import ManifestRelay.HostName.Name
import ManifestRelay.Http.Escape

/-!
# Hosts

A host is given by its name or by its address.  Addresses of 32 bits may be
written as one to four numbers in base eight, ten or sixteen, addresses of 128
bits as pieces of 16 bits in brackets.
-/

namespace ManifestRelay.Http

inductive Host where
  /-- In small letters of ASCII. -/
  | named (name : String)
  | v4 (address : Nat)
  /-- Eight numbers of 16 bits. -/
  | v6 (pieces : List Nat)
deriving DecidableEq, Repr, Inhabited

namespace Host

/-! ### Addresses of 32 bits -/

def digit? (base : Nat) (c : Char) : Option Nat :=
  if isAlphanumeric c then
    (Text.hexValue? (UInt8.ofNat c.toNat)).filter (· < base)
  else none

/-- The number that digits are in a base; no digits are zero. -/
def number? (base : Nat) (digits : List Char) : Option Nat :=
  digits.foldlM (fun n c => (digit? base c).map (base * n + ·)) 0

/-- A part of an address, in base sixteen after `0x` and in base eight after another `0`. -/
def part? : List Char → Option Nat
  | [] => none
  | '0' :: 'x' :: digits => number? 16 digits
  | '0' :: 'X' :: digits => number? 16 digits
  | ['0'] => some 0
  | '0' :: digits => number? 8 digits
  | digits => number? 10 digits

/-- Parts between dots; a dot at the end ends the last. -/
def partsOf (name : List Char) : List (List Char) :=
  let parts := name.splitOn '.'
  if parts.getLast? = some [] then parts.dropLast else parts

/-- Whether a name ends in a number, so that it has to be an address. -/
def endsInNumber (name : List Char) : Bool :=
  match (partsOf name).getLast? with
  | none => false
  | some part => (!part.isEmpty && part.all Char.isDigit) || (part? part).isSome

/-- How many addresses there are when so many bytes of them are open. -/
def room (bytes : Nat) : Nat := Nat.pow 256 bytes

/-- The address of parts: one byte each, and for the last all bytes that are left. -/
def address? (parts : List (List Char)) : Option Nat := do
  let numbers ← parts.mapM part?
  let bytes := numbers.dropLast
  let last ← numbers.getLast?
  if bytes.length < 4 && bytes.all (· < 256) && last < room (4 - bytes.length) then
    some (bytes.foldl (256 * · + ·) 0 * room (4 - bytes.length) + last)
  else none

/-! ### Addresses of 128 bits -/

/-- A byte in base ten without needless zeros. -/
def byte? (digits : List Char) : Option Nat :=
  match digits with
  | ['0'] => some 0
  | '0' :: _ => none
  | [] => none
  | _ => (number? 10 digits).filter (· < 256)

/-- The last pieces of an address: one in base sixteen, or two as four bytes. -/
def lastPieces? (text : List Char) : Option (List Nat) :=
  if text.contains '.' then do
    match ← (text.splitOn '.').mapM byte? with
    | [a, b, c, d] => some [256 * a + b, 256 * c + d]
    | _ => none
  else if text.isEmpty || 4 < text.length then none
  else (number? 16 text).map ([·])

/-- Pieces between colons; only the last may be written as bytes. -/
def pieces? (bytesAllowed : Bool) : List (List Char) → Option (List Nat)
  | [] => some []
  | [last] => if last.contains '.' && !bytesAllowed then none else lastPieces? last
  | piece :: rest => do
      if piece.contains '.' then none
      else return (← lastPieces? piece) ++ (← pieces? bytesAllowed rest)

def splitGap : List Char → List Char → Option (List Char × List Char)
  | _, [] => none
  | before, ':' :: ':' :: behind => some (before.reverse, behind)
  | before, c :: rest => splitGap (c :: before) rest

def side? (bytesAllowed : Bool) (text : List Char) : Option (List Nat) :=
  if text.isEmpty then some [] else pieces? bytesAllowed (text.splitOn ':')

/-- The pieces of an address, in which two colons stand for pieces that are zero. -/
def address6? (text : List Char) : Option (List Nat) :=
  match splitGap [] text with
  | none => (side? true text).filter (·.length = 8)
  | some (before, behind) => do
      let before ← side? false before
      let behind ← side? true behind
      if before.length + behind.length < 8 then
        some (before ++ List.replicate (8 - before.length - behind.length) 0 ++ behind)
      else none

/-! ### Reading and writing -/

def bracketed? (text : List Char) : Option Host :=
  if text.getLast? = some ']' then (address6? text.tail.dropLast).map .v6 else none

def read? (text : List Char) : Option Host :=
  if text.head? = some '[' then bracketed? text
  else do
    let name := (← HostName.toAscii? (← unescapeText? text)).toList
    if name.isEmpty then none
    else if endsInNumber name then (address? (partsOf name)).map .v4
    else some (.named (String.ofList name))

/-- Read a host of which nothing more is known. -/
def readOpaque? (text : List Char) : Option Host :=
  if text.head? = some '[' then bracketed? text
  else if text.any fun c => c = '\x00' || " #/:<>?@[\\]^|".contains c then none
  else some (.named (String.ofList (escape keepsInOpaque text)))

def leadingZeros (pieces : List Nat) : Nat := (pieces.takeWhile (· = 0)).length

/-- The first of the longest runs of zeros: where it starts and how long it is. -/
def longestZeros : Nat → List Nat → Nat × Nat
  | _, [] => (0, 0)
  | place, piece :: rest =>
      let here := leadingZeros (piece :: rest)
      let (start, length) := longestZeros (place + 1) rest
      if length ≤ here then (place, here) else (start, length)

def pieceText (n : Nat) : String := String.ofList (Nat.toDigits 16 n)

def piecesText (pieces : List Nat) : String := ":".intercalate (pieces.map pieceText)

def text : Host → String
  | .named name => name
  | .v4 n => ".".intercalate ([n / room 3, n / room 2, n / 256, n].map fun n => toString (n % 256))
  | .v6 pieces =>
      let (start, length) := longestZeros 0 pieces
      if length < 2 then "[" ++ piecesText pieces ++ "]"
      else
        "[" ++ piecesText (pieces.take start) ++ "::" ++ piecesText (pieces.drop (start + length)) ++
          "]"

end Host

end ManifestRelay.Http
