import ManifestRelay.Yaml.Token

/-!
# Scalars

The text of a scalar that spans lines is folded: a single line break between
words becomes a space, and of several breaks the first is dropped. `Gap` holds
the white space between two words until it is known what it stands for.
-/

namespace ManifestRelay.Yaml

/-- White space between two words of a scalar, newest character first. -/
inductive Gap where
  | blanks (text : List Char)
  /-- Line breaks: the first, if it counts, and the ones after it. -/
  | breaks (first : Option Char) (more : List Char)
deriving DecidableEq, Repr

namespace Gap

def none : Gap := .blanks []

def addBlank (c : Char) : Gap → Gap
  | .blanks text => .blanks (c :: text)
  | gap => gap

def addBreak (c : Char) : Gap → Gap
  | .blanks _ => .breaks (some (breakValue c)) []
  | .breaks first more => .breaks first (breakValue c :: more)

def hasBreak : Gap → Bool
  | .blanks _ => false
  | .breaks .. => true

/-- What the white space stands for, newest character first. -/
def folded : Gap → List Char
  | .blanks text => text
  | .breaks (some '\n') [] => [' ']
  | .breaks (some '\n') more => more
  | .breaks first more => more ++ first.toList

end Gap

namespace Cursor

/-- Move over white space. A tab is refused on a later line before the column
`indent`. -/
def readGap (indent : Nat) : (fuel : Nat) → Cursor → Gap → Option (Gap × Cursor)
  | 0, c, gap => some (gap, c)
  | fuel + 1, c, gap =>
      match c.rest with
      | [] => some (gap, c)
      | ch :: _ =>
          if isBlank ch then
            if gap.hasBreak && c.column < indent && ch = '\t' then .none
            else readGap indent fuel (c.skip 1) (gap.addBlank ch)
          else if isBreak ch then readGap indent fuel c.skipBreak (gap.addBreak ch)
          else some (gap, c)

/-! ## Plain scalars -/

def flowEnds : List Char := [',', '[', ']', '\x7b', '\x7d']

/-- Read a word of a plain scalar, newest character first. -/
def readPlainWord (inFlow : Bool) : List Char → (word : List Char) → Option (List Char)
  | [], word => some word
  | ch :: rest, word =>
      if isBlank ch || isBreak ch then some word
      else if inFlow && ch = ':' && rest.head?.any fun next => next ∈ '?' :: flowEnds then none
      else if (ch = ':' && blankAhead rest) || (inFlow && ch ∈ flowEnds) then some word
      else readPlainWord inFlow rest (ch :: word)

/-- Read the rest of a plain scalar; `gap` precedes the next word. The result
says whether a line break was read after the last word. -/
def readPlainFrom (inFlow : Bool) (indent : Nat) :
    (fuel : Nat) → Cursor → (text : List Char) → Gap → Option (List Char × Bool × Cursor)
  | 0, c, text, gap => some (text, gap.hasBreak, c)
  | fuel + 1, c, text, gap => do
      if c.atDocumentMarker || c.sees '#' then return (text, gap.hasBreak, c)
      let word ← readPlainWord inFlow c.rest []
      let (text, gap) := if word = [] then (text, gap) else (word ++ gap.folded ++ text, Gap.none)
      let c := c.skip word.length
      if !(c.rest.head?.any fun ch => isBlank ch || isBreak ch) then
        return (text, gap.hasBreak, c)
      let (gap, c) ← readGap indent (c.rest.length + 1) c gap
      if !inFlow && c.column < indent then return (text, gap.hasBreak, c)
      readPlainFrom inFlow indent fuel c text gap

/-- Read a plain scalar whose later lines start at the column `indent` or
after it. -/
def readPlain (c : Cursor) (inFlow : Bool) (indent : Nat) : Option (List Char × Bool × Cursor) :=
  (readPlainFrom inFlow indent (c.rest.length + 1) c [] .none).map
    fun (text, broken, c) => (text.reverse, broken, c)

/-! ## Quoted scalars -/

def shortEscape? : Char → Option Char
  | '0' => some '\x00'
  | 'a' => some '\x07'
  | 'b' => some '\x08'
  | 't' | '\t' => some '\t'
  | 'n' => some '\n'
  | 'v' => some '\x0B'
  | 'f' => some '\x0C'
  | 'r' => some '\r'
  | 'e' => some '\x1B'
  | ' ' => some ' '
  | '"' => some '"'
  | '/' => some '/'
  | '\\' => some '\\'
  | 'N' => some '\u0085'
  | '_' => some '\u00A0'
  | 'L' => some '\u2028'
  | 'P' => some '\u2029'
  | _ => none

def escapeWidth? : Char → Option Nat
  | 'x' => some 2
  | 'u' => some 4
  | 'U' => some 8
  | _ => none

def numberedChar? (digits : List Char) : Option Char := do
  let values ← digits.mapM hexDigit?
  let n := values.foldl (fun n d => n * 16 + d) 0
  if n.isValidChar then some (Char.ofNat n) else none

inductive QuotedStop where
  | quote
  | blank
  /-- A backslash before a line break, which joins the lines. -/
  | joined

/-- Read a word of a quoted scalar, newest character first, and the number of
characters that it takes. -/
def readQuotedWord (single : Bool) : (fuel : Nat) → List Char → (taken : Nat) →
    (word : List Char) → Option (List Char × Nat × QuotedStop)
  | 0, _, _, _ => none
  | fuel + 1, rest, taken, word =>
      match rest with
      | [] => some (word, taken, .blank)
      | ch :: more =>
          if isBlank ch || isBreak ch then some (word, taken, .blank)
          else if single then
            match ch, more with
            | '\'', '\'' :: more => readQuotedWord single fuel more (taken + 2) ('\'' :: word)
            | '\'', _ => some (word, taken, .quote)
            | _, _ => readQuotedWord single fuel more (taken + 1) (ch :: word)
          else if ch = '"' then some (word, taken, .quote)
          else if ch = '\\' then
            match more with
            | [] => none
            | e :: more =>
                if isBreak e then some (word, taken + 1, .joined)
                else match shortEscape? e, escapeWidth? e with
                  | some ch, _ => readQuotedWord single fuel more (taken + 2) (ch :: word)
                  | none, some width => do
                      if more.length < width then none
                      let ch ← numberedChar? (more.take width)
                      readQuotedWord single fuel (more.drop width) (taken + 2 + width) (ch :: word)
                  | none, none => none
          else readQuotedWord single fuel more (taken + 1) (ch :: word)

def readQuotedFrom (single : Bool) : (fuel : Nat) → Cursor → (text : List Char) →
    Option (List Char × Cursor)
  | 0, _, _ => none
  | fuel + 1, c, text => do
      if c.atDocumentMarker || c.rest = [] then none
      let (word, taken, stop) ← readQuotedWord single (c.rest.length + 1) c.rest 0 []
      let text := word ++ text
      let c := c.skip taken
      match stop with
      | .quote => return (text, c.skip 1)
      | .blank =>
          let (gap, c) ← readGap 0 (c.rest.length + 1) c .none
          readQuotedFrom single fuel c (gap.folded ++ text)
      | .joined =>
          let (gap, c) ← readGap 0 (c.rest.length + 1) c.skipBreak (.breaks .none [])
          readQuotedFrom single fuel c (gap.folded ++ text)

def readQuoted (c : Cursor) (single : Bool) : Option (List Char × Cursor) :=
  (readQuotedFrom single (c.rest.length + 1) (c.skip 1) []).map
    fun (text, c) => (text.reverse, c)

/-! ## Block scalars -/

inductive Chomping where
  | clip
  | strip
  | keep
deriving DecidableEq, Repr

def chomping? : Char → Option Chomping
  | '-' => some .strip
  | '+' => some .keep
  | _ => none

/-- Read the indicators after the mark of a block scalar: the chomping and the
indentation, in either order. -/
def readBlockHeader (c : Cursor) : Option (Chomping × Option Nat × Cursor) := do
  let chomp (c : Cursor) : Option Chomping := c.rest.head? >>= chomping?
  let digit (c : Cursor) : Option Char := c.rest.head?.filter Char.isDigit
  match chomp c with
  | some chomping =>
      let c := c.skip 1
      match digit c with
      | some '0' => none
      | some d => some (chomping, some (d.toNat - 48), c.skip 1)
      | none => some (chomping, none, c)
  | none =>
      match digit c with
      | some '0' => none
      | some d =>
          let c := c.skip 1
          match chomp c with
          | some chomping => some (chomping, some (d.toNat - 48), c.skip 1)
          | none => some (.clip, some (d.toNat - 48), c)
      | none => some (.clip, none, c)

/-- Read the empty lines before a line of a block scalar. Without a known
indentation every space counts as indentation. The result holds the breaks,
newest first, and the widest indentation seen. -/
def readEmptyLines (indent : Option Nat) : (fuel : Nat) → Cursor → (breaks : List Char) →
    (widest : Nat) → Option (List Char × Nat × Cursor)
  | 0, c, breaks, widest => some (breaks, widest, c)
  | fuel + 1, c, breaks, widest =>
      let spaces := (c.rest.takeWhile (· = ' ')).length
      let room := match indent with
        | some n => n - c.column
        | none => spaces
      let c := c.skip (min spaces room)
      let widest := max widest c.column
      let inside := match indent with
        | some n => c.column < n
        | none => true
      if inside && c.sees '\t' then none
      else match c.rest with
        | ch :: _ =>
            if isBreak ch then
              readEmptyLines indent fuel c.skipBreak (breakValue ch :: breaks) widest
            else some (breaks, widest, c)
        | [] => some (breaks, widest, c)

structure BlockLines where
  /-- The text so far, newest character first. -/
  text : List Char
  pending : Option Char
  /-- The breaks of the empty lines after it, newest first. -/
  empty : List Char
  /-- Whether the last line started with white space. -/
  indented : Bool

namespace BlockLines

/-- Add a line: in a folded scalar the break before it becomes a space, or is
dropped before empty lines, unless one of the two lines starts with white
space. -/
def add (b : BlockLines) (literal : Bool) (line : List Char) (pending : Option Char) :
    BlockLines :=
  let indented := line.head?.any isBlank
  let joins := !literal && b.pending = some '\n' && !b.indented && !indented
  let joint :=
    if joins then (if b.empty = [] then [' '] else []) else b.pending.toList
  ⟨line.reverse ++ b.empty ++ joint ++ b.text, pending, [], indented⟩

def finish (b : BlockLines) (chomping : Chomping) : List Char :=
  let tail := match chomping with
    | .strip => []
    | .clip => b.pending.toList
    | .keep => b.empty ++ b.pending.toList
  (tail ++ b.text).reverse

end BlockLines

def readBlockLines (literal : Bool) (indent : Nat) : (fuel : Nat) → Cursor → BlockLines →
    Option (BlockLines × Cursor)
  | 0, c, lines => some (lines, c)
  | fuel + 1, c, lines =>
      if c.column ≠ indent ∨ c.rest = [] then some (lines, c)
      else do
        let (line, c) := c.readWhile (!isBreak ·)
        let lines := lines.add literal line (c.rest.head?.map breakValue)
        let c := c.skipBreak
        let (breaks, _, c) ← readEmptyLines (some indent) (c.rest.length + 1) c [] 0
        readBlockLines literal indent fuel c { lines with empty := breaks }

/-- Read a block scalar inside a block whose indentation is `parent`, which is
negative outside every block. -/
def readBlock (c : Cursor) (literal : Bool) (parent : Int) : Option (List Char × Cursor) := do
  let (chomping, increment, c) ← (c.skip 1).readBlockHeader
  let c ← c.endLine?
  let known := increment.map fun n => parent.toNat + n
  let (breaks, widest, c) ← readEmptyLines known (c.rest.length + 1) c [] 0
  let indent := known.getD (max widest (max (parent + 1).toNat 1))
  let (lines, c) ← readBlockLines literal indent (c.rest.length + 1) c ⟨[], none, breaks, false⟩
  some (lines.finish chomping, c)

end Cursor

end ManifestRelay.Yaml
