import ManifestRelay.Yaml.Layout

/-!
# Events of a document

A document is the list of its nodes in written order, the end of every
collection marked. `Event.ofTokens?` reads the tokens of a text that holds at
most one document. Omitted keys, values and entries are empty plain scalars.
An anchor is known by the number of different names declared before it, and an
alias by the number of its anchor.
-/

namespace ManifestRelay.Yaml

structure Properties where
  anchor : Option Nat
  tag : Option (List UInt8)
deriving DecidableEq, Repr

inductive Event where
  | alias (anchor : Nat)
  | scalar (properties : Properties) (text : List Char) (plain : Bool)
  | sequenceStart (properties : Properties)
  | mappingStart (properties : Properties)
  | collectionEnd
deriving DecidableEq, Repr

namespace Event

def noProperties : Properties := ⟨none, none⟩

def omitted : Event := .scalar noProperties [] true

end Event

structure Reading where
  tokens : List Token
  /-- The events so far, newest first. -/
  events : List Event
  handles : List (List Char × List UInt8)
  /-- The anchors declared so far, each name once. -/
  anchors : List (List Char × Nat)

namespace Reading

def drop (r : Reading) : Reading := { r with tokens := r.tokens.tail }

def add (r : Reading) (e : Event) : Reading := { r with events := e :: r.events }

def sees (r : Reading) (t : Token) : Bool := r.tokens.head? = some t

def seesAny (r : Reading) (ts : List Token) : Bool := r.tokens.head?.any (· ∈ ts)

/-- The tag that a written tag stands for. -/
def resolve (r : Reading) (t : TagText) : Option (List UInt8) :=
  if t.handle = [] then some t.suffix
  else (r.handles.lookup t.handle).map (· ++ t.suffix)

def declare (r : Reading) (name : List Char) : Nat × Reading :=
  let number := r.anchors.length
  (number, { r with anchors := (name, number) :: r.anchors.filter (·.1 ≠ name) })

/-- Read the anchor and the tag of a node, in either order. -/
def readProperties (r : Reading) : Option (Properties × Reading) :=
  match r.tokens with
  | .anchor name :: .tag tag :: tokens
  | .tag tag :: .anchor name :: tokens => do
      let tag ← r.resolve tag
      let (anchor, r) := r.declare name
      some (⟨some anchor, some tag⟩, { r with tokens })
  | .anchor name :: tokens =>
      let (anchor, r) := r.declare name
      some (⟨some anchor, none⟩, { r with tokens })
  | .tag tag :: tokens => do some (⟨none, some (← r.resolve tag)⟩, { r with tokens })
  | _ => some (Event.noProperties, r)

/-- A node of which only the properties are written. -/
def readEmpty (properties : Properties) (r : Reading) : Option Reading :=
  if properties = Event.noProperties then none else some (r.add (.scalar properties [] true))

inductive Part where
  /-- A node; whether block collections may stand here, and sequences that are
  not indented. -/
  | node (block indentless : Bool)
  | blockSequence
  | indentlessSequence
  | blockMapping
  | flowSequence (first : Bool)
  | flowMapping (first : Bool)

/-- The tag that means no tag on a scalar. -/
def plainTag : List UInt8 := [0x21]

mutual

/-- Read a part. At most four steps are nested between two tokens. -/
def readPart : (fuel : Nat) → Part → Reading → Option Reading
  | 0, _, _ => none
  | fuel + 1, .node block indentless, r => readNode fuel block indentless r
  | fuel + 1, .blockSequence, r =>
      match r.tokens with
      | .blockEntry :: _ => do
          let r := r.drop
          let r ← if r.seesAny [.blockEntry, .blockEnd] then some (r.add .omitted)
            else readPart fuel (.node true false) r
          readPart fuel .blockSequence r
      | .blockEnd :: _ => some (r.drop.add .collectionEnd)
      | _ => none
  | fuel + 1, .indentlessSequence, r =>
      match r.tokens with
      | .blockEntry :: _ => do
          let r := r.drop
          let r ← if r.seesAny [.blockEntry, .key, .value, .blockEnd] then some (r.add .omitted)
            else readPart fuel (.node true false) r
          readPart fuel .indentlessSequence r
      | _ => some (r.add .collectionEnd)
  | fuel + 1, .blockMapping, r =>
      match r.tokens with
      | .key :: _ => do
          let r ← readBlockSide fuel r.drop
          let r ← if r.sees .value then readBlockSide fuel r.drop else some (r.add .omitted)
          readPart fuel .blockMapping r
      | .blockEnd :: _ => some (r.drop.add .collectionEnd)
      | _ => none
  | fuel + 1, .flowSequence first, r =>
      if r.sees .flowSequenceEnd then some (r.drop.add .collectionEnd)
      else do
        let r ← if first then some r else if r.sees .flowEntry then some r.drop else none
        if r.sees .key then
          let r := r.drop.add (.mappingStart Event.noProperties)
          let r ←
            if r.seesAny [.value, .flowEntry, .flowSequenceEnd] then some (r.drop.add .omitted)
            else readPart fuel (.node false false) r
          let r ← readFlowValue fuel .flowSequenceEnd r
          readPart fuel (.flowSequence false) (r.add .collectionEnd)
        else if r.sees .flowSequenceEnd then some (r.drop.add .collectionEnd)
        else readPart fuel (.flowSequence false) (← readPart fuel (.node false false) r)
  | fuel + 1, .flowMapping first, r =>
      if r.sees .flowMappingEnd then some (r.drop.add .collectionEnd)
      else do
        let r ← if first then some r else if r.sees .flowEntry then some r.drop else none
        if r.sees .key then
          let r := r.drop
          let r ←
            if r.seesAny [.value, .flowEntry, .flowMappingEnd] then some (r.add .omitted)
            else readPart fuel (.node false false) r
          let r ← readFlowValue fuel .flowMappingEnd r
          readPart fuel (.flowMapping false) r
        else if r.sees .flowMappingEnd then some (r.drop.add .collectionEnd)
        else
          let r ← readPart fuel (.node false false) r
          readPart fuel (.flowMapping false) (r.add .omitted)

def readNode : (fuel : Nat) → (block indentless : Bool) → Reading → Option Reading
  | 0, _, _, _ => none
  | fuel + 1, block, indentless, r =>
      match r.tokens with
      | .alias name :: _ => do some (r.drop.add (.alias (← r.anchors.lookup name)))
      | _ => do
          let (properties, r) ← r.readProperties
          match r.tokens with
          | .scalar text plain :: _ =>
              let properties :=
                if properties.tag = some plainTag then { properties with tag := none }
                else properties
              some (r.drop.add (.scalar properties text plain))
          | .flowSequenceStart :: _ =>
              readPart fuel (.flowSequence true) (r.drop.add (.sequenceStart properties))
          | .flowMappingStart :: _ =>
              readPart fuel (.flowMapping true) (r.drop.add (.mappingStart properties))
          | .blockEntry :: _ =>
              if indentless then
                readPart fuel .indentlessSequence (r.add (.sequenceStart properties))
              else readEmpty properties r
          | .blockSequenceStart :: _ =>
              if block then
                readPart fuel .blockSequence (r.drop.add (.sequenceStart properties))
              else readEmpty properties r
          | .blockMappingStart :: _ =>
              if block then readPart fuel .blockMapping (r.drop.add (.mappingStart properties))
              else readEmpty properties r
          | _ => readEmpty properties r

def readBlockSide : (fuel : Nat) → Reading → Option Reading
  | 0, _ => none
  | fuel + 1, r =>
      if r.seesAny [.key, .value, .blockEnd] then some (r.add .omitted)
      else readPart fuel (.node true true) r

/-- Read the value of a key in a flow collection that ends with `close`. -/
def readFlowValue : (fuel : Nat) → (close : Token) → Reading → Option Reading
  | 0, _, _ => none
  | fuel + 1, close, r =>
      if r.sees .value then
        let r := r.drop
        if r.seesAny [.flowEntry, close] then some (r.add .omitted)
        else readPart fuel (.node false false) r
      else some (r.add .omitted)

end

/-- The tag handles that need no declaration. -/
def commonHandles : List (List Char × List UInt8) :=
  [("!".toList, "!".toUTF8.toList), ("!!".toList, "tag:yaml.org,2002:".toUTF8.toList)]

/-- Read the directives of a document; each may stand once. -/
def readDirectives : (versioned : Bool) → List Token → (handles : List (List Char × List UInt8)) →
    Option (List Token × List (List Char × List UInt8))
  | versioned, .version major minor :: tokens, handles =>
      if !versioned && major = 1 && (minor = 1 || minor = 2) then
        readDirectives true tokens handles
      else none
  | versioned, .tagDirective handle start :: tokens, handles =>
      if (handles.lookup handle).isSome then none
      else readDirectives versioned tokens ((handle, start) :: handles)
  | _, tokens, handles => some (tokens, handles)

/-- Whether a token cannot belong to a node of a document that was announced. -/
def endsDocument : Token → Bool
  | .version .. | .tagDirective .. | .documentStart | .documentEnd => true
  | _ => false

def readDocument (tokens : List Token) : Option Reading := do
  let (rest, handles) ← readDirectives false tokens []
  let start (tokens : List Token) : Reading := ⟨tokens, [], handles ++ commonHandles, []⟩
  let readRoot (r : Reading) : Option Reading :=
    readPart (4 * (tokens.length + 2)) (.node true false) r
  match rest with
  | .documentStart :: rest =>
      if rest.head?.all endsDocument then some ((start rest).add .omitted)
      else readRoot (start rest)
  | _ => if handles = [] && rest.length = tokens.length then readRoot (start rest) else none

end Reading

namespace Event

/-- The events of the document that the tokens hold; a text without tokens
holds none. -/
def ofTokens? (tokens : List Token) : Option (List Event) :=
  if tokens = [] then some []
  else do
    let r ← Reading.readDocument tokens
    if r.tokens.all (· = .documentEnd) then some r.events.reverse else none

end Event

end ManifestRelay.Yaml
