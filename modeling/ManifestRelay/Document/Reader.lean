import ManifestRelay.Document.Token

/-!
# Reading documents

The tokens of a document are read one after another with a stack of the arrays
and objects that are still open.  Nothing bounds how deep they nest.
-/

namespace ManifestRelay.Document

/-- An array or object that is still open; its parts stand latest first. -/
inductive Frame where
  | array (items : List Value)
  | object (members : List (Option String × Value))
  /-- An object at the value of a member. -/
  | member (members : List (Option String × Value)) (name : Option String)

inductive Expected where
  /-- A value, or the end of an array that has none yet. -/
  | value (orEnd : Bool)
  /-- A name, or the end of an object that has no member yet. -/
  | name (orEnd : Bool)
  | colon
  /-- A comma, or the end of what is open. -/
  | separator
  | nothing (result : Value)

structure Progress where
  frames : List Frame
  expected : Expected

namespace Progress

def start : Progress := ⟨[], .value false⟩

def complete (value : Value) : List Frame → Option Progress
  | [] => some ⟨[], .nothing value⟩
  | .array items :: frames => some ⟨.array (value :: items) :: frames, .separator⟩
  | .member members name :: frames =>
      some ⟨.object ((name, value) :: members) :: frames, .separator⟩
  | .object _ :: _ => none

/-- The value that ends with a closing mark, and what is open around it. -/
def close : Token → List Frame → Option Progress
  | .closeArray, .array items :: frames => complete (.array items.reverse) frames
  | .closeObject, .object members :: frames => complete (.object members.reverse) frames
  | _, _ => none

def readValue (frames : List Frame) : Token → Option Progress
  | .openArray => some ⟨.array [] :: frames, .value true⟩
  | .openObject => some ⟨.object [] :: frames, .name true⟩
  | .null => complete .null frames
  | .bool b => complete (.bool b) frames
  | .number n => complete (.number n) frames
  | .text s => complete (.text s) frames
  | _ => none

def step (p : Progress) (token : Token) : Option Progress :=
  match p.expected, token, p.frames with
  | .value true, .closeArray, frames => close .closeArray frames
  | .value _, token, frames => readValue frames token
  | .name true, .closeObject, frames => close .closeObject frames
  | .name _, .text name, .object members :: frames =>
      some ⟨.member members name :: frames, .colon⟩
  | .colon, .colon, frames => some ⟨frames, .value false⟩
  | .separator, .comma, .array items :: frames => some ⟨.array items :: frames, .value false⟩
  | .separator, .comma, .object members :: frames =>
      some ⟨.object members :: frames, .name false⟩
  | .separator, token, frames => close token frames
  | _, _, _ => none

def result (p : Progress) : Option Value :=
  match p.expected with
  | .nothing value => some value
  | _ => none

end Progress

/-- Read a document, which has to be all there is. -/
def Value.read (bytes : List UInt8) : Option Value := do
  let tokens ← Token.readAll bytes
  (← tokens.foldlM Progress.step .start).result

end ManifestRelay.Document
