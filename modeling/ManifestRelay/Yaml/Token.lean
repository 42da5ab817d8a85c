import ManifestRelay.Yaml.Cursor

/-!
# Tokens

The tokens of a YAML text, and the reading of those that stand on one line:
directives, anchors, aliases and tags. A reader that meets something else
gives `none`.
-/

namespace ManifestRelay.Yaml

/-- A tag as written: a handle, empty for a whole tag, and the rest. -/
structure TagText where
  handle : List Char
  suffix : List UInt8
deriving DecidableEq, Repr

inductive Token where
  | version (major minor : Nat)
  | tagDirective (handle : List Char) (start : List UInt8)
  | documentStart
  | documentEnd
  | blockSequenceStart
  | blockMappingStart
  | blockEnd
  | flowSequenceStart
  | flowSequenceEnd
  | flowMappingStart
  | flowMappingEnd
  | blockEntry
  | flowEntry
  | key
  | value
  | alias (name : List Char)
  | anchor (name : List Char)
  | tag (text : TagText)
  | scalar (text : List Char) (plain : Bool)
deriving DecidableEq, Repr

namespace Cursor

/-- Read a number of at most nine digits. -/
def readVersionNumber (c : Cursor) : Option (Nat × Cursor) :=
  let (digits, c) := c.readWhile Char.isDigit
  if digits = [] ∨ 9 < digits.length then none
  else some (digits.foldl (fun n d => n * 10 + (d.toNat - 48)) 0, c)

def hexDigit? (c : Char) : Option Nat :=
  if '0' ≤ c && c ≤ '9' then some (c.toNat - 48)
  else if 'a' ≤ c && c ≤ 'f' then some (c.toNat - 87)
  else if 'A' ≤ c && c ≤ 'F' then some (c.toNat - 55)
  else none

def escapedByte? : List Char → Option UInt8
  | '%' :: high :: low :: _ => do
      let high ← hexDigit? high
      let low ← hexDigit? low
      some (UInt8.ofNat (high * 16 + low))
  | _ => none

/-- Number of bytes of the character that starts with a byte. -/
def sequenceLength? (b : UInt8) : Option Nat :=
  if b < 0x80 then some 1
  else if 0xC0 ≤ b && b < 0xE0 then some 2
  else if 0xE0 ≤ b && b < 0xF0 then some 3
  else if 0xF0 ≤ b && b < 0xF8 then some 4
  else none

/-- Read `n` more escaped bytes of a character, each of the form `10xxxxxx`. -/
def readTailBytes : (n : Nat) → Cursor → Option (List UInt8 × Cursor)
  | 0, c => some ([], c)
  | n + 1, c => do
      let b ← escapedByte? c.rest
      if 0x80 ≤ b && b < 0xC0 then
        let (more, c) ← readTailBytes n (c.skip 3)
        some (b :: more, c)
      else none

def readEscapedChar (c : Cursor) : Option (List UInt8 × Cursor) := do
  let b ← escapedByte? c.rest
  let n ← sequenceLength? b
  let (more, c) ← readTailBytes (n - 1) (c.skip 3)
  some (b :: more, c)

/-- The characters of the rest of a tag; a tag in angle brackets may also hold
flow indicators. -/
def isTagChar (whole : Bool) (c : Char) : Bool :=
  isNameChar c || c ∈ ";/?:@&=+$.%!~*'()".toList || (whole && c ∈ ",[]".toList)

def readTagChars (whole : Bool) : (fuel : Nat) → Cursor → List UInt8 →
    Option (List UInt8 × Cursor)
  | 0, c, bytes => some (bytes, c)
  | fuel + 1, c, bytes =>
      match c.rest with
      | [] => some (bytes, c)
      | ch :: _ =>
          if !isTagChar whole ch then some (bytes, c)
          else if ch = '%' then do
            let (more, c) ← c.readEscapedChar
            readTagChars whole fuel c (more.reverse ++ bytes)
          else readTagChars whole fuel (c.skip 1) (UInt8.ofNat ch.toNat :: bytes)

/-- Read the rest of a tag that starts with `start`; it must not be empty
unless `mayBeEmpty`. -/
def readTagRest (c : Cursor) (whole mayBeEmpty : Bool) (start : List Char) :
    Option (List UInt8 × Cursor) := do
  let first := (start.map fun ch => UInt8.ofNat ch.toNat).reverse
  let (bytes, c) ← readTagChars whole (c.rest.length + 1) c first
  if bytes = [] && !mayBeEmpty then none else some (bytes.reverse, c)

/-- Read a tag handle: `!`, or a name between exclamation marks. The second
mark may be missing; then the text is the start of a tag. -/
def readTagHandle (c : Cursor) : Option (List Char × Cursor) :=
  if c.sees '!' then
    let (name, c) := (c.skip 1).readWhile isNameChar
    if c.sees '!' then some ('!' :: name ++ ['!'], c.skip 1) else some ('!' :: name, c)
  else none

def readTagDirective (c : Cursor) : Option (Token × Cursor) := do
  let (handle, c) ← (c.skipWhile isBlank).readTagHandle
  if handle ≠ ['!'] ∧ (handle.length = 1 ∨ handle.getLast? ≠ some '!') then none
  if !(c.rest.head?.any isBlank) then none
  let (start, c) ← (c.skipWhile isBlank).readTagRest true false []
  if blankAhead c.rest then some (.tagDirective handle start, c) else none

def readVersion (c : Cursor) : Option (Token × Cursor) := do
  let (major, c) ← (c.skipWhile isBlank).readVersionNumber
  if !c.sees '.' then none
  let (minor, c) ← (c.skip 1).readVersionNumber
  some (.version major minor, c)

def readDirective (c : Cursor) : Option (Token × Cursor) := do
  let (name, c) := (c.skip 1).readWhile isNameChar
  if !blankAhead c.rest then none
  let (token, c) ←
    if name = "YAML".toList then c.readVersion
    else if name = "TAG".toList then c.readTagDirective
    else none
  let c ← c.endLine?
  some (token, c)

def readAnchorName (c : Cursor) : Option (List Char × Cursor) :=
  let (name, c) := (c.skip 1).readWhile isNameChar
  let ends := blankAhead c.rest || c.rest.head?.any (· ∈ "?:,]\x7d%@`".toList)
  if name = [] || !ends then none else some (name, c)

/-- Read a tag; inside flow collections a comma may follow it directly. -/
def readTag (c : Cursor) (inFlow : Bool) : Option (TagText × Cursor) := do
  let (tag, c) ←
    if c.rest.take 2 = ['!', '<'] then do
      let (suffix, c) ← (c.skip 2).readTagRest true false []
      if c.sees '>' then some ((⟨[], suffix⟩ : TagText), c.skip 1) else none
    else do
      let (handle, c) ← c.readTagHandle
      if 1 < handle.length && handle.getLast? = some '!' then do
        let (suffix, c) ← c.readTagRest false false []
        some (⟨handle, suffix⟩, c)
      else do
        let (suffix, c) ← c.readTagRest false true handle.tail
        some (if suffix = [] then ⟨[], [0x21]⟩ else ⟨['!'], suffix⟩, c)
  if (inFlow && c.sees ',') || blankAhead c.rest then some (tag, c) else none

end Cursor

end ManifestRelay.Yaml
