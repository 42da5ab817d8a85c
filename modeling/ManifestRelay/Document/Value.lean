import ManifestRelay.Binary.Width

/-!
# Documents

A document is `null`, a truth value, a number, a text, an array or an object.
Objects keep their members in order, repeated names and all.
-/

namespace ManifestRelay.Document

/-- The value of a document.  A text or a name that stands for no characters is `none`. -/
inductive Value where
  | null
  | bool (b : Bool)
  /-- A number, as the integer that it is written as; `none` for every other number. -/
  | number (integer : Option Int)
  | text (characters : Option String)
  | array (items : List Value)
  | object (members : List (Option String × Value))
deriving Repr, Inhabited

namespace Value

def text? : Value → Option String
  | .text s => s
  | _ => none

def integer? : Value → Option Int
  | .number (some n) => if Binary.holdsInteger 64 n then some n else none
  | _ => none

/-- The members of an object whose names are all texts. -/
def members? : Value → Option (List (String × Value))
  | .object members => members.mapM fun (name, value) => name.map (·, value)
  | _ => none

/-- The value of a name that may not be repeated. -/
def single (members : List (String × Value)) (name : String) : Option (Option Value) :=
  match members.filter (·.1 == name) with
  | [] => some none
  | [(_, value)] => some (some value)
  | _ => none

/-- The fields of a record with these names.  An object tells them by name, and what else it has
does not matter; an array tells them by place, the last of them or none at all missing. -/
def fields? (names : List String) : Value → Option (List (Option Value))
  | .array items =>
      if items.length ≤ names.length then
        some (items.map some ++ List.replicate (names.length - items.length) none)
      else none
  | value => do
      let members ← value.members?
      names.mapM (single members)

/-- A table of texts; of equal names the last counts. -/
def table? (value : Value) : Option (List (String × String)) := do
  let members ← value.members?
  let entries ← members.mapM fun (name, value) => value.text?.map (name, ·)
  return entries.foldl (fun table entry => table.filter (·.1 != entry.1) ++ [entry]) []

end Value

end ManifestRelay.Document
