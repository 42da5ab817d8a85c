import ManifestRelay.Configuration.File
import ManifestRelay.Text.Blank

/-!
# Configuration of an agent

`AgentConfiguration.parse` reads the bytes of a configuration file, checks the
file and fills in defaults. A file of which every line is blank, a comment or
a document marker has every setting at its default.
-/

namespace ManifestRelay.Configuration

structure ManifestProject where
  id : String
  /-- Namespace of manifests that name none. -/
  namespaceName : String
  globs : List String
deriving DecidableEq, Repr

structure Logging where
  level : String
deriving DecidableEq, Repr

structure Observability where
  logging : Option Logging
deriving DecidableEq, Repr

structure Gitops where
  projects : List ManifestProject
deriving DecidableEq, Repr

structure AgentConfiguration where
  gitops : Option Gitops
  observability : Option Observability
deriving DecidableEq, Repr

inductive ParseFault where
  | utf8 (fault : Text.Utf8.Fault)
  /-- The text is no YAML document; what the reader of documents says of it is left out. -/
  | yaml
  | schema (fault : SchemaError)

inductive InvalidSetting where
  | emptyId (index : Nat)
  | unknownLevel (level : String)
deriving DecidableEq, Repr

inductive ConfigurationError where
  | parse (fault : ParseFault)
  | invalid (setting : InvalidSetting)

namespace ParseFault

/-- What is wrong with the text; the fault of a text that is no YAML document
is not described further. -/
def message : ParseFault → String
  | .utf8 fault => fault.message
  | .yaml => ""
  | .schema fault => fault.message

end ParseFault

namespace InvalidSetting

def message : InvalidSetting → String
  | .emptyId index =>
      s!"gitops.manifest_projects[{index}].id: value length must be at least 1 runes"
  | .unknownLevel level => s!"observability.logging.level: unknown level {Text.quoted level}"

end InvalidSetting

namespace ConfigurationError

/-- What is said of a refused file. Of a text that is no YAML document nothing
follows the colon, for `ParseFault.yaml` does not tell where and how it fails. -/
def message : ConfigurationError → String
  | .parse fault => s!"failed to parse agent configuration file: {fault.message}"
  | .invalid setting => s!"invalid agent configuration: {setting.message}"

end ConfigurationError

def logLevels : List String := ["debug", "info", "warn", "error"]

def defaultNamespace : String := "default"

def defaultGlob : String := "**/*.{yaml,yml,json}"

/-- Whether a line says nothing. -/
def isIdleLine (line : List Char) : Bool :=
  let line := Text.trimmed line
  line = [] || line.head? = some '#' || line = ['-', '-', '-'] || line = ['.', '.', '.']

def isIdle (text : List Char) : Bool := (Text.lines text).all isIdleLine

def File.check (file : File) : Except InvalidSetting Unit := do
  let projects := (file.gitops.map (·.projects)).getD []
  match projects.findIdx? (·.id = "") with
  | some index => .error (.emptyId index)
  | none => pure ()
  match file.observability.bind (·.logging) with
  | some logging =>
      if logging.level ≠ "" ∧ logging.level ∉ logLevels then .error (.unknownLevel logging.level)
  | none => pure ()

namespace ManifestProject

/-- A project with its defaults filled in. -/
def ofEntry (entry : ProjectEntry) : ManifestProject where
  id := entry.id
  namespaceName := if entry.namespaceName = "" then defaultNamespace else entry.namespaceName
  globs := if entry.paths = [] then [defaultGlob] else entry.paths.map (·.glob)

end ManifestProject

namespace AgentConfiguration

/-- A file with its defaults filled in. -/
def ofFile (file : File) : AgentConfiguration where
  gitops := some ⟨((file.gitops.map (·.projects)).getD []).map .ofEntry⟩
  observability := file.observability.map fun o => ⟨o.logging.map fun l => ⟨l.level⟩⟩

def fileOfText (text : List Char) : Except ParseFault File :=
  if isIdle text then .ok .empty
  else
    match Yaml.Value.ofText? text with
    | none => .error .yaml
    | some value => (File.ofValue value).mapError .schema

def parse (bytes : List UInt8) : Except ConfigurationError AgentConfiguration := do
  let text ← (Text.Utf8.decode bytes).mapError fun fault => .parse (.utf8 fault)
  let file ← (fileOfText text).mapError .parse
  file.check.mapError .invalid
  return ofFile file

end AgentConfiguration

def filePath (agent : String) : String := s!".gitlab/agents/{agent}/config.yaml"

end ManifestRelay.Configuration
