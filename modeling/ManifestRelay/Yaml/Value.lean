import ManifestRelay.Text.Utf8
import ManifestRelay.Yaml.Event
import ManifestRelay.Yaml.Plain

/-!
# Values of YAML texts

`Value.ofText?` reads a text that holds one document. An alias stands for the
value of its anchor. Collections may be nested 128 deep, aliases may be
followed a hundred times for every event of the document, and the keys of a
mapping differ.
-/

namespace ManifestRelay.Yaml

inductive Value where
  | null
  | bool (b : Bool)
  | integer (n : Int)
  | float (x : Decimal.Binary64)
  | string (text : List Char)
  | sequence (items : List Value)
  | mapping (entries : List (Value × Value))
  /-- A value with a tag of the text's own. -/
  | tagged (tag : List Char) (value : Value)
deriving Repr

namespace Value

def untagged : Value → Value
  | .tagged _ value => untagged value
  | value => value

mutual

/-- Whether two values are the same key. The order of entries does not
matter. -/
def same : Value → Value → Bool
  | .null, .null => true
  | .bool a, .bool b => a = b
  | .integer a, .integer b => a = b
  | .float a, .float b => a.same b
  | .string a, .string b => a = b
  | .sequence a, .sequence b => sameItems a b
  | .mapping a, .mapping b => a.length = b.length && sameEntries a b
  | .tagged s a, .tagged t b => s = t && same a b
  | _, _ => false

def sameItems : List Value → List Value → Bool
  | [], [] => true
  | a :: as, b :: bs => same a b && sameItems as bs
  | _, _ => false

/-- Whether every entry of the first list has its like in the second. -/
def sameEntries : List (Value × Value) → List (Value × Value) → Bool
  | [], _ => true
  | (k, v) :: rest, entries =>
      entries.any (fun e => same k e.1 && same v e.2) && sameEntries rest entries

end

/-! ## Scalars -/

/-- What a scalar without quotes stands for; a whole number of more than 64
bits is refused. -/
def ofPlain (text : List Char) : Option Value :=
  if text = [] || Plain.isNull text then some .null
  else if let some b := Plain.bool? text then some (.bool b)
  else if let some n := (Plain.integer? text).filter Plain.isWhole then
    if Plain.isSupported n then some (.integer n) else none
  else if Plain.hasLeadingZero text then some (.string text)
  else if let some x := Plain.float? text then some (.float x)
  else some (.string text)

/-- The tags of YAML's own that say what a scalar must be. -/
inductive CoreTag where
  | bool
  | int
  | float
  | null
deriving DecidableEq, Repr

def CoreTag.ofTag? (tag : List UInt8) : Option CoreTag :=
  if tag = "tag:yaml.org,2002:bool".toUTF8.toList then some .bool
  else if tag = "tag:yaml.org,2002:int".toUTF8.toList then some .int
  else if tag = "tag:yaml.org,2002:float".toUTF8.toList then some .float
  else if tag = "tag:yaml.org,2002:null".toUTF8.toList then some .null
  else none

def ofCore (tag : CoreTag) (text : List Char) : Option Value :=
  match tag with
  | .bool => (Plain.bool? text).map .bool
  | .int => do
      let n ← (Plain.integer? text).filter Plain.isSupported
      some (.integer n)
  | .float => (Plain.float? text).map .float
  | .null => if Plain.isNull text then some .null else none

/-- Whether a tag belongs to the text and not to YAML. -/
def isLocal (tag : List UInt8) : Bool := tag.head? = some 0x21

/-- The name in a tag of the text's own; a second exclamation mark does not
tell names apart. -/
def localName? (tag : List UInt8) : Option (List Char) :=
  match tag with
  | [0x21] => some ['!']
  | 0x21 :: rest => (Text.Utf8.decode? rest).map fun name =>
      match name with
      | '!' :: first :: more => first :: more
      | name => name
  | _ => none

def ofScalar (tag : Option (List UInt8)) (text : List Char) (plain : Bool) : Option Value :=
  match tag with
  | none => if plain then ofPlain text else some (.string text)
  | some tag =>
      match localName? tag, CoreTag.ofTag? tag with
      | some name, _ =>
          (if plain then ofPlain text else some (.string text)).map (.tagged name)
      | none, some core => ofCore core text
      | none, none => if isLocal tag && plain then ofPlain text else some (.string text)

/-- Put the tag of a collection around it, if the tag is the text's own. -/
def withTag (tag : Option (List UInt8)) (value : Value) : Value :=
  match tag >>= localName? with
  | some name => .tagged name value
  | none => value

/-! ## Documents -/

/-- The events from the node with a given anchor on; the last such node counts. -/
def anchored (events : List Event) (anchor : Nat) : Option (List Event) :=
  let rec go : List Event → Option (List Event) → Option (List Event)
    | [], found => found
    | e :: rest, found =>
        let here : Bool := match e with
          | .scalar p .. | .sequenceStart p | .mappingStart p => p.anchor = some anchor
          | _ => false
        go rest (if here then some (e :: rest) else found)
  go events none

structure Loaded (α : Type) where
  result : α
  /-- The events after it. -/
  rest : List Event
  /-- How many more aliases may be followed. -/
  jumps : Nat

mutual

/-- Read a node of a document; collections may be nested `depth` deep in it. -/
def load (document : List Event) : (fuel depth : Nat) → List Event → (jumps : Nat) →
    Option (Loaded Value)
  | 0, _, _, _ => none
  | _ + 1, _, [], _ => none
  | fuel + 1, depth, event :: rest, jumps =>
      match event, depth, jumps with
      | .alias anchor, depth, jumps + 1 => do
          let target ← anchored document anchor
          let loaded ← load document fuel depth target jumps
          some ⟨loaded.result, rest, loaded.jumps⟩
      | .scalar properties text plain, _, jumps => do
          some ⟨← ofScalar properties.tag text plain, rest, jumps⟩
      | .sequenceStart properties, depth + 1, jumps => do
          let loaded ← loadItems document fuel depth rest jumps []
          some ⟨withTag properties.tag (.sequence loaded.result), loaded.rest, loaded.jumps⟩
      | .mappingStart properties, depth + 1, jumps => do
          let loaded ← loadEntries document fuel depth rest jumps []
          some ⟨withTag properties.tag (.mapping loaded.result), loaded.rest, loaded.jumps⟩
      | _, _, _ => none

/-- Read the items of a sequence, newest first, and its end. -/
def loadItems (document : List Event) : (fuel depth : Nat) → List Event → (jumps : Nat) →
    List Value → Option (Loaded (List Value))
  | 0, _, _, _, _ => none
  | _ + 1, _, .collectionEnd :: rest, jumps, items => some ⟨items.reverse, rest, jumps⟩
  | fuel + 1, depth, events, jumps, items => do
      let loaded ← load document fuel depth events jumps
      loadItems document fuel depth loaded.rest loaded.jumps (loaded.result :: items)

def loadEntries (document : List Event) : (fuel depth : Nat) → List Event → (jumps : Nat) →
    List (Value × Value) → Option (Loaded (List (Value × Value)))
  | 0, _, _, _, _ => none
  | _ + 1, _, .collectionEnd :: rest, jumps, entries => some ⟨entries.reverse, rest, jumps⟩
  | fuel + 1, depth, events, jumps, entries => do
      let key ← load document fuel depth events jumps
      if entries.any fun entry => same entry.1 key.result then none
      let value ← load document fuel depth key.rest key.jumps
      loadEntries document fuel depth value.rest value.jumps ((key.result, value.result) :: entries)

end

/-- How deep collections may be nested. -/
def maxDepth : Nat := 128

def ofEvents? (events : List Event) : Option Value :=
  if events = [] then some .null
  else
    let jumps := 100 * events.length
    let fuel := (events.length + 1) * (jumps + 2)
    (load events fuel maxDepth events jumps).map (·.result)

def ofText? (text : List Char) : Option Value := do
  if !text.all isAllowed then none
  let text := if text.head? = some byteOrderMark then text.tail else text
  ofEvents? (← Event.ofTokens? (← tokens? text))

end Value

end ManifestRelay.Yaml
