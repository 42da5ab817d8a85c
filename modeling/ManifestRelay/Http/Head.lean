import ManifestRelay.Text.Octet

/-!
# Heads of messages

A message starts with lines: one that says how it went, one for each field, and
an empty one.  A line ends with a line feed, with or without a carriage return
before it, and holds no control characters but tabs.
-/

namespace ManifestRelay.Http

open Text

/-! ### Lines -/

def isLineByte (b : UInt8) : Bool := 0x20 ≤ b && b != 0x7F || b = 0x09

def readLine? (bytes : List UInt8) : Option (List UInt8 × List UInt8) :=
  let line := bytes.takeWhile isLineByte
  match bytes.drop line.length with
  | 0x0A :: rest => some (line, rest)
  | 0x0D :: 0x0A :: rest => some (line, rest)
  | _ => none

/-! ### Fields -/

structure Field where
  /-- In lower case. -/
  name : String
  value : List UInt8
deriving DecidableEq, Repr, Inhabited

def isNameByte (b : UInt8) : Bool :=
  isDigitByte b || isLetterByte b || "!#$%&'*+-.^_`|~".contains (Char.ofNat b.toNat)

def Field.ofLine (line : List UInt8) : Option Field :=
  let name := line.takeWhile isNameByte
  match line.drop name.length with
  | 0x3A :: value =>
      if name.isEmpty then none else some ⟨(asciiText name).toLower, withoutBlanks value⟩
  | _ => none

/-- The fields up to an empty line, if there are at most so many, and the bytes after it. -/
def readFields? : Nat → List UInt8 → Option (List Field × List UInt8)
  | limit, bytes => do
      match ← readLine? bytes with
      | ([], rest) => some ([], rest)
      | (line, rest) =>
          match limit with
          | 0 => none
          | limit + 1 =>
              let field ← Field.ofLine line
              let (fields, rest) ← readFields? limit rest
              return (field :: fields, rest)

/-! ### Heads of responses -/

structure Head where
  /-- Whether it is written in the first version of the protocol. -/
  isOld : Bool
  status : Nat
  fields : List Field
deriving DecidableEq, Repr, Inhabited

namespace Head

def values (h : Head) (name : String) : List (List UInt8) :=
  (h.fields.filter (·.name = name)).map (·.value)

def maxFields : Nat := 100

def readStatus? (line : List UInt8) : Option (Bool × Nat) := do
  let version := asciiText (line.take 9)
  if version != "HTTP/1.0 " && version != "HTTP/1.1 " then none
  let code := (line.drop 9).take 3
  let status := decimalValue code
  let ends := match line.drop 12 with
    | [] => true
    | b :: _ => b = 0x20
  if code.length = 3 && code.all isDigitByte && 100 ≤ status && ends then
    some (version = "HTTP/1.0 ", status)
  else none

/-- Bytes without the empty lines that they start with. -/
def skipEmptyLines : List UInt8 → List UInt8
  | 0x0A :: rest => skipEmptyLines rest
  | 0x0D :: 0x0A :: rest => skipEmptyLines rest
  | bytes => bytes

def read? (bytes : List UInt8) : Option (Head × List UInt8) := do
  let (line, rest) ← readLine? (skipEmptyLines bytes)
  let (isOld, status) ← readStatus? line
  let (fields, rest) ← readFields? maxFields rest
  return (⟨isOld, status, fields⟩, rest)

end Head

end ManifestRelay.Http
