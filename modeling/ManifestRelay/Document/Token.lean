import ManifestRelay.Document.Value
import ManifestRelay.Text.Octet
import ManifestRelay.Text.Utf8

/-!
# The tokens of a document

A document is a sequence of marks and of values that have no parts, with blanks
between them.  A string stands between quotes; control characters are not
allowed in it, and a backslash begins an escape.
-/

namespace ManifestRelay.Document

open Text

inductive Token where
  | openArray
  | closeArray
  | openObject
  | closeObject
  | comma
  | colon
  | null
  | bool (b : Bool)
  | number (integer : Option Int)
  | text (characters : Option String)
deriving DecidableEq, Repr

/-- A part of a string: bytes as they stand, or a unit of 16 bits. -/
inductive Piece where
  | byte (b : UInt8)
  | unit (n : Nat)
deriving DecidableEq, Repr

namespace Token

def isBlank (b : UInt8) : Bool := b = 0x20 || b = 0x0A || b = 0x0D || b = 0x09

def unit? (digits : List UInt8) : Option Nat := do
  return (← digits.mapM hexValue?).foldl (16 * · + ·) 0

def simpleEscape? (b : UInt8) : Option UInt8 :=
  if b = 0x22 || b = 0x5C || b = 0x2F then some b
  else if b = 0x62 then some 0x08
  else if b = 0x66 then some 0x0C
  else if b = 0x6E then some 0x0A
  else if b = 0x72 then some 0x0D
  else if b = 0x74 then some 0x09
  else none

/-- Read the rest of a string behind its opening quote. -/
def readString : List UInt8 → Option (List Piece × List UInt8)
  | [] => none
  | b :: rest =>
      if b = 0x22 then some ([], rest)
      else if b < 0x20 then none
      else if b = 0x5C then
        match rest with
        | 0x75 :: d₁ :: d₂ :: d₃ :: d₄ :: rest => do
            let unit ← unit? [d₁, d₂, d₃, d₄]
            let (pieces, rest) ← readString rest
            return (.unit unit :: pieces, rest)
        | e :: rest => do
            let byte ← simpleEscape? e
            let (pieces, rest) ← readString rest
            return (.byte byte :: pieces, rest)
        | [] => none
      else do
        let (pieces, rest) ← readString rest
        return (.byte b :: pieces, rest)

def isHighSurrogate (n : Nat) : Bool := 0xD800 ≤ n && n < 0xDC00

def isLowSurrogate (n : Nat) : Bool := 0xDC00 ≤ n && n < 0xE000

/-- The bytes of the pieces of a string; surrogates that make no pair have none. -/
def bytes? : List Piece → Option (List UInt8)
  | [] => some []
  | .byte b :: rest => (bytes? rest).map (b :: ·)
  | .unit n :: rest =>
      if isHighSurrogate n then
        match rest with
        | .unit low :: rest =>
            if isLowSurrogate low then
              let c := Char.ofNat (0x10000 + (n - 0xD800) * 0x400 + (low - 0xDC00))
              (bytes? rest).map (Utf8.encodeChar c ++ ·)
            else none
        | _ => none
      else if isLowSurrogate n then none
      else (bytes? rest).map (Utf8.encodeChar (Char.ofNat n) ++ ·)

def characters (pieces : List Piece) : Option String := do
  let bytes ← bytes? pieces
  let characters ← (Utf8.decode bytes).toOption
  return String.ofList characters

def readDigits (bytes : List UInt8) : Option (List UInt8 × List UInt8) :=
  match bytes.takeWhile isDigitByte with
  | [] => none
  | digits => some (digits, bytes.dropWhile isDigitByte)

/-- The whole part of a number: one digit, or more that do not start with a zero. -/
def readWhole : List UInt8 → Option (List UInt8 × List UInt8)
  | 0x30 :: rest => some ([0x30], rest)
  | bytes => readDigits bytes

def readFraction : List UInt8 → Option (Bool × List UInt8)
  | 0x2E :: rest => (readDigits rest).map fun (_, rest) => (true, rest)
  | bytes => some (false, bytes)

def readExponent : List UInt8 → Option (Bool × List UInt8)
  | b :: rest =>
      if b = 0x65 || b = 0x45 then
        let rest :=
          match rest with
          | s :: digits => if s = 0x2B || s = 0x2D then digits else rest
          | [] => []
        (readDigits rest).map fun (_, rest) => (true, rest)
      else some (false, b :: rest)
  | [] => some (false, [])

/-- Read a number.  Zero with a sign is no integer. -/
def readNumber (bytes : List UInt8) : Option (Token × List UInt8) := do
  let negative := bytes.head? = some 0x2D
  let (digits, rest) ← readWhole (if negative then bytes.drop 1 else bytes)
  let (hasFraction, rest) ← readFraction rest
  let (hasExponent, rest) ← readExponent rest
  let n := decimalValue digits
  let integer : Option Int :=
    if hasFraction || hasExponent || negative && n = 0 then none
    else if negative then some (-n)
    else some n
  return (.number integer, rest)

/-- The marks and words that are tokens by themselves. -/
def fixed : List (String × Token) :=
  [("[", .openArray), ("]", .closeArray), ("\x7b", .openObject), ("\x7d", .closeObject),
    (",", .comma), (":", .colon), ("null", .null), ("true", .bool true), ("false", .bool false)]

/-- What follows these bytes if a text starts with them. -/
def after : List UInt8 → List UInt8 → Option (List UInt8)
  | [], bytes => some bytes
  | a :: head, b :: bytes => if a = b then after head bytes else none
  | _ :: _, [] => none

def readFixed (bytes : List UInt8) : Option (Token × List UInt8) :=
  fixed.findSome? fun (spelling, token) =>
    (after (Utf8.encode spelling.toList) bytes).map (token, ·)

def read (bytes : List UInt8) : Option (Token × List UInt8) :=
  match bytes with
  | 0x22 :: rest => (readString rest).map fun (pieces, rest) => (.text (characters pieces), rest)
  | _ =>
      match readFixed bytes with
      | some found => some found
      | none => readNumber bytes

def readUpTo : Nat → List UInt8 → Option (List Token)
  | fuel, bytes =>
      match bytes.dropWhile isBlank, fuel with
      | [], _ => some []
      | _, 0 => none
      | bytes, fuel + 1 => do
          let (token, rest) ← read bytes
          return token :: (← readUpTo fuel rest)

/-- Read all tokens; every one of them takes a byte at least. -/
def readAll (bytes : List UInt8) : Option (List Token) := readUpTo bytes.length bytes

end Token

end ManifestRelay.Document
