import ManifestRelay.Binary.Width

/-!
# Fields of a binary message

A message is a sequence of fields.  A field has a number and a value; a number
is written in base 128, its lowest digit first, and a value that has a length
is written behind that length.  `readFields` reads what `writeFields` writes,
and also passes over the kinds of value that no message of ours has.
-/

namespace ManifestRelay.Wire

inductive Value where
  | varint (n : Nat)
  | fixed64
  | bytes (data : List UInt8)
  | group
  | fixed32
deriving DecidableEq, Repr, Inhabited

structure Field where
  number : Nat
  value : Value
deriving DecidableEq, Repr, Inhabited

/-! ## Writing -/

/-- A number in base 128. -/
def writeVarint (n : Nat) : List UInt8 :=
  if n < 128 then [UInt8.ofNat n] else UInt8.ofNat (128 + n % 128) :: writeVarint (n / 128)

def writeBytes (number : Nat) (data : List UInt8) : List UInt8 :=
  writeVarint (number * 8 + 2) ++ writeVarint data.length ++ data

/-- The fields of a message that has only values with a length. -/
def writeFields (fields : List (Nat × List UInt8)) : List UInt8 :=
  fields.flatMap fun (number, data) => writeBytes number data

/-! ## Reading -/

/-- Read a number of at most ten digits and 64 bits; `position` digits of value `read`
came before. -/
def readDigits (position read : Nat) : List UInt8 → Option (Nat × List UInt8)
  | [] => none
  | b :: rest =>
      if b < 128 then
        if position = 9 && 2 ≤ b then none else some (read + b.toNat * Nat.pow 128 position, rest)
      else if position = 9 then none
      else readDigits (position + 1) (read + b.toNat % 128 * Nat.pow 128 position) rest

def readVarint (bytes : List UInt8) : Option (Nat × List UInt8) := readDigits 0 0 bytes

def takeBytes (n : Nat) (bytes : List UInt8) : Option (List UInt8 × List UInt8) :=
  if n ≤ bytes.length then some (bytes.splitAt n) else none

def readKey (bytes : List UInt8) : Option (Nat × Nat × List UInt8) := do
  let (key, rest) ← readVarint bytes
  if Binary.holdsNatural 32 key && 0 < key / 8 then some (key / 8, key % 8, rest) else none

/-- Read a value of a kind that has no fields of its own. -/
def readPlain (kind : Nat) (bytes : List UInt8) : Option (Value × List UInt8) :=
  match kind with
  | 0 => (readVarint bytes).map fun (n, rest) => (.varint n, rest)
  | 1 => (takeBytes 8 bytes).map fun (_, rest) => (.fixed64, rest)
  | 2 => do
      let (length, rest) ← readVarint bytes
      let (data, rest) ← takeBytes length rest
      return (.bytes data, rest)
  | 5 => (takeBytes 4 bytes).map fun (_, rest) => (.fixed32, rest)
  | _ => none

/-- Pass over the fields of a group up to its end. Values within it may be nested `depth`
levels deep. -/
def skipGroup (number depth : Nat) : Nat → List UInt8 → Option (List UInt8)
  | 0, _ => none
  | fuel + 1, bytes => do
      let (inner, kind, rest) ← readKey bytes
      if kind = 4 then
        if inner = number then return rest else none
      else
        match depth with
        | 0 => none
        | below + 1 =>
            let rest ←
              if kind = 3 then skipGroup inner below fuel rest
              else (readPlain kind rest).map (·.2)
            skipGroup number depth fuel rest

def readField (depth : Nat) (bytes : List UInt8) : Option (Field × List UInt8) := do
  let (number, kind, rest) ← readKey bytes
  if kind = 3 then
    let rest ← skipGroup number depth rest.length rest
    return (⟨number, .group⟩, rest)
  else
    let (value, rest) ← readPlain kind rest
    return (⟨number, value⟩, rest)

def readFieldsFor (depth : Nat) : Nat → List UInt8 → Option (List Field)
  | _, [] => some []
  | 0, _ => none
  | fuel + 1, bytes => do
      let (field, rest) ← readField depth bytes
      return field :: (← readFieldsFor depth fuel rest)

/-- Levels that values may be nested in the outermost message. -/
def maxDepth : Nat := 100

/-- Read the fields of a message that lies in `level` others. -/
def readFields (level : Nat) (bytes : List UInt8) : Option (List Field) :=
  readFieldsFor (maxDepth - 1 - level) bytes.length bytes

end ManifestRelay.Wire
