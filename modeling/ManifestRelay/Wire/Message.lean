import ManifestRelay.Configuration.Settings
import ManifestRelay.Turn.Frame
import ManifestRelay.Wire.Field

/-!
# Messages between agents and the relay

Every message has an `encode` and a `decode?`.  A text or a byte sequence that
is empty is left out, and reading takes what is left out as empty.  Of a field
that stands twice the last one counts, except that messages are merged and
those of a list are collected.  Fields of unknown numbers are passed over.
-/

namespace ManifestRelay.Wire

open Turn
open ManifestRelay.Configuration

/-! ## Values of fields -/

def textBytes (text : String) : List UInt8 := Text.Utf8.encode text.toList

def textOf? : Value → Option String
  | .bytes data => (Text.Utf8.decode? data).map String.ofList
  | _ => none

def bytesOf? : Value → Option (List UInt8)
  | .bytes data => some data
  | _ => none

def unlessEmpty (number : Nat) (data : List UInt8) : List (Nat × List UInt8) :=
  if data = [] then [] else [(number, data)]

/-- Read the fields of a message into what is known of it already. -/
def mergeFields {α : Type} (step : α → Field → Option α) (level : Nat) (known : α)
    (data : List UInt8) : Option α := do
  (← readFields level data).foldlM step known

def mergeInner {α : Type} (step : α → Field → Option α) (level : Nat) (known : α) :
    Value → Option α
  | .bytes data => mergeFields step level known data
  | _ => none

/-! ## Requests -/

structure ConfigurationRequest where
  commit : String
deriving DecidableEq, Repr, Inhabited

namespace ConfigurationRequest

def encode (r : ConfigurationRequest) : List UInt8 :=
  writeFields (unlessEmpty 1 (textBytes r.commit))

def step (r : ConfigurationRequest) (field : Field) : Option ConfigurationRequest :=
  match field.number with
  | 1 => (textOf? field.value).map ({ r with commit := · })
  | _ => some r

def decode? (bytes : List UInt8) : Option ConfigurationRequest := mergeFields step 0 ⟨""⟩ bytes

end ConfigurationRequest

structure ObjectsRequest where
  projectId : String
  commit : String
  globs : List String
deriving DecidableEq, Repr, Inhabited

def encodeText (text : String) : List UInt8 := writeFields (unlessEmpty 1 (textBytes text))

def textStep (text : String) (field : Field) : Option String :=
  match field.number with
  | 1 => textOf? field.value
  | _ => some text

namespace ObjectsRequest

def encode (r : ObjectsRequest) : List UInt8 :=
  writeFields
    (unlessEmpty 1 (textBytes r.projectId) ++ unlessEmpty 2 (textBytes r.commit) ++
      r.globs.map fun glob => (3, encodeText glob))

def step (r : ObjectsRequest) (field : Field) : Option ObjectsRequest :=
  match field.number with
  | 1 => (textOf? field.value).map ({ r with projectId := · })
  | 2 => (textOf? field.value).map ({ r with commit := · })
  | 3 => (mergeInner textStep 1 "" field.value).map ({ r with globs := r.globs ++ [·] })
  | _ => some r

def decode? (bytes : List UInt8) : Option ObjectsRequest := mergeFields step 0 ⟨"", "", []⟩ bytes

end ObjectsRequest

/-! ## Frames of a turn -/

namespace Frame

def encodeObject (source : String) (data : List UInt8) : List UInt8 :=
  writeFields (unlessEmpty 1 (textBytes source) ++ unlessEmpty 2 data)

/-- A frame in the one field that is its kind. -/
def encode : Frame → List UInt8
  | .headers commit => writeBytes 1 (encodeText commit)
  | .object source data => writeBytes 2 (encodeObject source data)
  | .trailers => writeBytes 3 []

def objectStep (known : String × List UInt8) (field : Field) : Option (String × List UInt8) :=
  match field.number with
  | 1 => (textOf? field.value).map ((·, known.2))
  | 2 => (bytesOf? field.value).map ((known.1, ·))
  | _ => some known

/-- Only the last kind counts; what came of the same kind before is merged. -/
def step (known : Option Frame) (field : Field) : Option (Option Frame) :=
  match field.number with
  | 1 =>
      let commit := match known with
        | some (.headers commit) => commit
        | _ => ""
      (mergeInner textStep 1 commit field.value).map (some ∘ .headers)
  | 2 =>
      let before := match known with
        | some (.object source data) => (source, data)
        | _ => ("", [])
      (mergeInner objectStep 1 before field.value).map fun (source, data) =>
        some (.object source data)
  | 3 => (mergeInner (fun _ _ => some ()) 1 () field.value).map fun _ => some .trailers
  | _ => some known

/-- The frame of a message; a message may hold none. -/
def decode? (bytes : List UInt8) : Option (Option Frame) := mergeFields step 0 none bytes

def expect : Option Frame → Except Stream.Status Frame
  | some frame => .ok frame
  | none => .error ⟨.internal, "empty synchronization message"⟩

end Frame

/-! ## Configurations -/

namespace Settings

def encodeProject (p : ManifestProject) : List UInt8 :=
  writeFields
    (unlessEmpty 1 (textBytes p.id) ++ unlessEmpty 2 (textBytes p.namespaceName) ++
      p.globs.map fun glob => (3, encodeText glob))

def encodeGitops (g : Gitops) : List UInt8 :=
  writeFields (g.projects.map fun p => (1, encodeProject p))

def encodeObservability (o : Observability) : List UInt8 :=
  writeFields (o.logging.toList.map fun logging => (1, encodeText logging.level))

def encode (c : AgentConfiguration) : List UInt8 :=
  writeFields
    ((c.gitops.toList.map fun g => (1, encodeGitops g)) ++
      c.observability.toList.map fun o => (2, encodeObservability o))

def projectStep (p : ManifestProject) (field : Field) : Option ManifestProject :=
  match field.number with
  | 1 => (textOf? field.value).map ({ p with id := · })
  | 2 => (textOf? field.value).map ({ p with namespaceName := · })
  | 3 => (mergeInner textStep 4 "" field.value).map ({ p with globs := p.globs ++ [·] })
  | _ => some p

def gitopsStep (g : Gitops) (field : Field) : Option Gitops :=
  match field.number with
  | 1 =>
      (mergeInner projectStep 3 ⟨"", "", []⟩ field.value).map
        ({ g with projects := g.projects ++ [·] })
  | _ => some g

def observabilityStep (o : Observability) (field : Field) : Option Observability :=
  match field.number with
  | 1 =>
      let known := (o.logging.map (·.level)).getD ""
      (mergeInner textStep 3 known field.value).map fun level => ⟨some ⟨level⟩⟩
  | _ => some o

def step (c : AgentConfiguration) (field : Field) : Option AgentConfiguration :=
  match field.number with
  | 1 =>
      (mergeInner gitopsStep 2 (c.gitops.getD ⟨[]⟩) field.value).map
        ({ c with gitops := some · })
  | 2 =>
      (mergeInner observabilityStep 2 (c.observability.getD ⟨none⟩) field.value).map
        ({ c with observability := some · })
  | _ => some c

end Settings

structure ConfigurationResponse where
  configuration : Option AgentConfiguration
  commit : String
deriving DecidableEq, Repr

namespace ConfigurationResponse

def encode (r : ConfigurationResponse) : List UInt8 :=
  writeFields
    ((r.configuration.toList.map fun c => (1, Settings.encode c)) ++
      unlessEmpty 2 (textBytes r.commit))

def step (r : ConfigurationResponse) (field : Field) : Option ConfigurationResponse :=
  match field.number with
  | 1 =>
      (mergeInner Settings.step 1 (r.configuration.getD ⟨none, none⟩) field.value).map
        ({ r with configuration := some · })
  | 2 => (textOf? field.value).map ({ r with commit := · })
  | _ => some r

def decode? (bytes : List UInt8) : Option ConfigurationResponse :=
  mergeFields step 0 ⟨none, ""⟩ bytes

end ConfigurationResponse

end ManifestRelay.Wire
