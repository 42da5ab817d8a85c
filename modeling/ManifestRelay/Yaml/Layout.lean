import ManifestRelay.Yaml.Scalar

/-!
# Tokens of a text

Indentation opens and closes block collections, and a `:` turns the token
before it into a mapping key, so the tokens of a text depend on its layout.
`Layout` is the state of reading: the place, the tokens so far, the columns of
the open block collections, and for every open flow collection the token that
a later `:` would turn into a key. A key stands on one line and takes at most
1024 characters.
-/

namespace ManifestRelay.Yaml

/-- A token that a later `:` would make a key. -/
structure KeyStart where
  tokens : Nat
  index : Nat
  line : Nat
  column : Nat
  /-- Whether the indentation leaves it no other meaning. -/
  required : Bool
deriving Repr

structure Layout where
  cursor : Cursor
  /-- The tokens so far, newest first. -/
  tokens : List Token
  /-- Column of the innermost block collection, negative outside all. -/
  indent : Int
  /-- Columns of the block collections around it. -/
  outer : List Int
  keyAllowed : Bool
  /-- The possible key of the innermost flow collection. -/
  key : Option KeyStart
  /-- The possible keys of the flow collections around it and of the block. -/
  outerKeys : List (Option KeyStart)

namespace Layout

def ofText (text : List Char) : Layout where
  cursor := .ofText text
  tokens := []
  indent := -1
  outer := []
  keyAllowed := true
  key := none
  outerKeys := []

def inFlow (l : Layout) : Bool := !l.outerKeys.isEmpty

def push (l : Layout) (t : Token) : Layout := { l with tokens := t :: l.tokens }

/-- Put a token before the tokens that follow the first `place`. -/
def insert (l : Layout) (place : Nat) (t : Token) : Layout :=
  let later := l.tokens.length - place
  { l with tokens := l.tokens.take later ++ t :: l.tokens.drop later }

/-- Forget the possible key; a required one is missing its `:`. -/
def dropKey (l : Layout) : Option Layout :=
  if l.key.any (·.required) then none else some { l with key := none }

def markKey (l : Layout) : Option Layout :=
  if l.keyAllowed then do
    let required := !l.inFlow && l.indent = l.cursor.column
    let start : KeyStart :=
      ⟨l.tokens.length, l.cursor.index, l.cursor.line, l.cursor.column, required⟩
    let l ← l.dropKey
    some { l with key := some start }
  else some l

def isStale (l : Layout) (k : KeyStart) : Bool :=
  k.line < l.cursor.line || k.index + 1024 < l.cursor.index

def dropStaleKeys (l : Layout) : Option Layout :=
  let keys := l.key :: l.outerKeys
  if keys.any fun k => k.any fun k => k.required && l.isStale k then none
  else
    let fresh (k : Option KeyStart) : Option KeyStart := k.filter (!l.isStale ·)
    some { l with key := fresh l.key, outerKeys := l.outerKeys.map fresh }

/-- Open a block collection at a column right of the open ones. -/
def openBlock (l : Layout) (column : Nat) (start : Token) (place : Option Nat) : Layout :=
  if l.inFlow || column ≤ l.indent then l
  else
    let l := { l with indent := column, outer := l.indent :: l.outer }
    match place with
    | some place => l.insert place start
    | none => l.push start

def closeBlocks (l : Layout) (column : Int) : Layout :=
  if l.inFlow then l
  else
    let rec go : List Int → Int → List Token → List Token × Int × List Int
      | [], indent, tokens => (tokens, indent, [])
      | next :: outer, indent, tokens =>
          if column < indent then go outer next (.blockEnd :: tokens)
          else (tokens, indent, next :: outer)
    let (tokens, indent, outer) := go l.outer l.indent l.tokens
    { l with tokens, indent, outer }

def skipSpace : (fuel : Nat) → Layout → Layout
  | 0, l => l
  | fuel + 1, l =>
      let c := l.cursor
      let c := if c.column = 0 && c.sees byteOrderMark then c.skip 1 else c
      let tabs := l.inFlow || !l.keyAllowed
      let c := (c.skipWhile fun ch => ch = ' ' || (tabs && ch = '\t')).skipComment
      if c.rest.head?.any isBreak then
        skipSpace fuel { l with cursor := c.skipBreak, keyAllowed := l.keyAllowed || !l.inFlow }
      else { l with cursor := c }

def take (l : Layout) (n : Nat) (t : Token) : Layout :=
  { l.push t with cursor := l.cursor.skip n }

/-- A directive or a document marker, which ends every block. -/
def atMargin (l : Layout) : Option Layout := do
  let l ← (l.closeBlocks (-1)).dropKey
  some { l with keyAllowed := false }

def readDirective (l : Layout) : Option Layout := do
  let l ← l.atMargin
  let (token, cursor) ← l.cursor.readDirective
  some { l.push token with cursor }

def readMarker (l : Layout) (t : Token) : Option Layout := do
  let l ← l.atMargin
  some (l.take 3 t)

def openFlow (l : Layout) (t : Token) : Option Layout := do
  let l ← l.markKey
  some { l.take 1 t with key := none, outerKeys := l.key :: l.outerKeys, keyAllowed := true }

def closeFlow (l : Layout) (t : Token) : Option Layout := do
  let l ← l.dropKey
  let l := match l.outerKeys with
    | [] => l
    | key :: outerKeys => { l with key, outerKeys }
  some { l.take 1 t with keyAllowed := false }

def readFlowEntry (l : Layout) : Option Layout := do
  let l ← l.dropKey
  some { l.take 1 .flowEntry with keyAllowed := true }

def readBlockEntry (l : Layout) : Option Layout := do
  if !l.inFlow && !l.keyAllowed then none
  let l ← (l.openBlock l.cursor.column .blockSequenceStart none).dropKey
  some { l.take 1 .blockEntry with keyAllowed := true }

def readKey (l : Layout) : Option Layout := do
  if !l.inFlow && !l.keyAllowed then none
  let l ← (l.openBlock l.cursor.column .blockMappingStart none).dropKey
  some { l.take 1 .key with keyAllowed := !l.inFlow }

def readValue (l : Layout) : Option Layout :=
  match l.key with
  | some k =>
      let l := (l.insert k.tokens .key).openBlock k.column .blockMappingStart (some k.tokens)
      some { l.take 1 .value with key := none, keyAllowed := false }
  | none =>
      if !l.inFlow && !l.keyAllowed then none
      else
        let l := l.openBlock l.cursor.column .blockMappingStart none
        some { l.take 1 .value with keyAllowed := !l.inFlow }

/-- Read a token that may be a key, or the properties of one. -/
def readKeyPart (l : Layout) (read : Cursor → Option (Token × Cursor)) : Option Layout := do
  let l ← l.markKey
  let (token, cursor) ← read l.cursor
  some { l.push token with cursor, keyAllowed := false }

def readPlain (l : Layout) : Option Layout := do
  let l ← l.markKey
  let (text, broken, cursor) ← l.cursor.readPlain l.inFlow (l.indent + 1).toNat
  some { l.push (.scalar text true) with cursor, keyAllowed := broken }

def readBlockScalar (l : Layout) (literal : Bool) : Option Layout := do
  let l ← l.dropKey
  let (text, cursor) ← l.cursor.readBlock literal l.indent
  some { l.push (.scalar text false) with cursor, keyAllowed := true }

def indicators : List Char :=
  "-?:,[]\x7b\x7d#&*!|>'\"%@`".toList

def startsPlain (inFlow : Bool) (ch : Char) (next : List Char) : Bool :=
  (ch ∉ indicators && !isBlank ch) || (ch = '-' && !next.head?.any isBlank) ||
    (!inFlow && (ch = '?' || ch = ':') && !blankAhead next)

/-- Read one token; `ch` is the character before the cursor's `next`. -/
def readToken (l : Layout) (ch : Char) (next : List Char) : Option Layout :=
  let c := l.cursor
  let blankNext := blankAhead next
  if c.column = 0 && ch = '%' then l.readDirective
  else if c.atMarker '-' then l.readMarker .documentStart
  else if c.atMarker '.' then l.readMarker .documentEnd
  else if ch = '[' then l.openFlow .flowSequenceStart
  else if ch = '\x7b' then l.openFlow .flowMappingStart
  else if ch = ']' then l.closeFlow .flowSequenceEnd
  else if ch = '\x7d' then l.closeFlow .flowMappingEnd
  else if ch = ',' then l.readFlowEntry
  else if ch = '-' && blankNext then l.readBlockEntry
  else if ch = '?' && (l.inFlow || blankNext) then l.readKey
  else if ch = ':' && (l.inFlow || blankNext) then l.readValue
  else if ch = '*' then
    l.readKeyPart fun c => c.readAnchorName.map fun (name, c) => (.alias name, c)
  else if ch = '&' then
    l.readKeyPart fun c => c.readAnchorName.map fun (name, c) => (.anchor name, c)
  else if ch = '!' then
    l.readKeyPart fun c => (c.readTag l.inFlow).map fun (tag, c) => (.tag tag, c)
  else if (ch = '|' || ch = '>') && !l.inFlow then l.readBlockScalar (ch = '|')
  else if ch = '\'' || ch = '"' then
    l.readKeyPart fun c => (c.readQuoted (ch = '\'')).map fun (text, c) => (.scalar text false, c)
  else if startsPlain l.inFlow ch next then l.readPlain
  else none

def readAll : (fuel : Nat) → Layout → Option Layout
  | 0, _ => none
  | fuel + 1, l => do
      let l := l.skipSpace (l.cursor.rest.length + 1)
      let l ← l.dropStaleKeys
      let l := l.closeBlocks l.cursor.column
      match l.cursor.rest with
      | [] => (l.closeBlocks (-1)).dropKey
      | ch :: next => readAll fuel (← l.readToken ch next)

end Layout

/-- The tokens of a text, or `none` if it has no tokens of YAML. -/
def tokens? (text : List Char) : Option (List Token) :=
  (Layout.readAll (text.length + 2) (.ofText text)).map (·.tokens.reverse)

end ManifestRelay.Yaml
