import ManifestRelay.Text.Quoted
import ManifestRelay.Yaml.Value

/-!
# Reading values of known shape

A reader takes a value apart and gives what it describes, or the first fault
in written order. Tags do not matter to a reader, and null is an empty
sequence and an empty mapping.
-/

namespace ManifestRelay.Configuration

open Yaml (Value)

inductive SchemaError where
  /-- A value of another type; `expected` says what it should be. -/
  | wrongType (found : Value) (expected : String)
  | unknownField (name : List Char) (known : List String)
  | repeatedField (name : String)

namespace SchemaError

/-- How a value is called in messages. -/
def called : Value → String
  | .null => "unit value"
  | .bool b => if b then "boolean `true`" else "boolean `false`"
  | .integer n => s!"integer `{n}`"
  | .float x => s!"floating point `{String.ofList x.text}`"
  | .string text => s!"string {Text.quoted (String.ofList text)}"
  | .sequence _ => "sequence"
  | .mapping _ => "map"
  | .tagged .. => "enum"

def choice : List String → String
  | [a] => s!"`{a}`"
  | [a, b] => s!"`{a}` or `{b}`"
  | names => "one of " ++ String.intercalate ", " (names.map fun name => s!"`{name}`")

def message : SchemaError → String
  | .wrongType found expected => s!"invalid type: {called found}, expected {expected}"
  | .unknownField name known =>
      s!"unknown field `{String.ofList name}`, expected {choice known}"
  | .repeatedField name => s!"duplicate field `{name}`"

end SchemaError

abbrev Reader (α : Type) := Value → Except SchemaError α

namespace Reader

def stringAs (expected : String) : Reader (List Char) := fun value =>
  match value.untagged with
  | .string text => .ok text
  | other => .error (.wrongType other expected)

def string : Reader String := fun value =>
  (stringAs "a string" value).map String.ofList

def sequence {α : Type} (item : Reader α) : Reader (List α) := fun value =>
  match value.untagged with
  | .sequence items => items.mapM item
  | .null => .ok []
  | other => .error (.wrongType other "a sequence")

/-- What `inner` reads, or nothing for null. -/
def optional {α : Type} (inner : Reader α) : Reader (Option α) := fun value =>
  match value with
  | .null => .ok none
  | value => (inner value).map some

end Reader

/-- A field of a record: its name and how its value changes the record. -/
structure Slot (σ : Type) where
  name : String
  update : Value → σ → Except SchemaError σ

def Slot.of {σ α : Type} (name : String) (read : Reader α) (set : α → σ → σ) : Slot σ where
  name := name
  update value record := (read value).map (set · record)

namespace Reader

/-- Read the entries of a mapping one after the other into a record; `seen`
holds the fields that were read. -/
def entries {σ : Type} (slots : List (Slot σ)) :
    (seen : List String) → List (Value × Value) → σ → Except SchemaError σ
  | _, [], record => .ok record
  | seen, (key, value) :: rest, record => do
      let name ← stringAs "field identifier" key
      match slots.find? (·.name.toList = name) with
      | none => .error (.unknownField name (slots.map (·.name)))
      | some slot =>
          if slot.name ∈ seen then .error (.repeatedField slot.name)
          else entries slots (slot.name :: seen) rest (← slot.update value record)

/-- A mapping with the fields `slots`; a field that is missing keeps its value
in `initial`. `called` names the record in messages. -/
def record {σ : Type} (called : String) (slots : List (Slot σ)) (initial : σ) : Reader σ :=
  fun value =>
    match value.untagged with
    | .mapping content => entries slots [] content initial
    | .null => .ok initial
    | other => .error (.wrongType other s!"struct {called}")

end Reader

end ManifestRelay.Configuration
