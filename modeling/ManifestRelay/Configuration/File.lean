import ManifestRelay.Configuration.Schema

/-!
# The configuration file of an agent

What the file says, before defaults are filled in. Sections and fields may be
missing; a field outside the schema is refused.
-/

namespace ManifestRelay.Configuration

structure PathEntry where
  glob : String
deriving DecidableEq, Repr

structure ProjectEntry where
  id : String
  namespaceName : String
  paths : List PathEntry
deriving DecidableEq, Repr

structure GitopsSection where
  projects : List ProjectEntry
deriving DecidableEq, Repr

structure LoggingSection where
  level : String
deriving DecidableEq, Repr

structure ObservabilitySection where
  logging : Option LoggingSection
deriving DecidableEq, Repr

structure File where
  gitops : Option GitopsSection
  observability : Option ObservabilitySection
deriving DecidableEq, Repr

namespace PathEntry

def read : Reader PathEntry :=
  .record "PathFile" [.of "glob" .string fun glob entry => { entry with glob }] ⟨""⟩

end PathEntry

namespace ProjectEntry

def read : Reader ProjectEntry :=
  .record "ManifestProjectFile"
    [.of "id" .string fun id entry => { entry with id },
      .of "default_namespace" .string fun namespaceName entry => { entry with namespaceName },
      .of "paths" (.sequence PathEntry.read) fun paths entry => { entry with paths }]
    ⟨"", "", []⟩

end ProjectEntry

namespace GitopsSection

def read : Reader GitopsSection :=
  .record "GitopsFile"
    [.of "manifest_projects" (.sequence ProjectEntry.read) fun projects _ => ⟨projects⟩] ⟨[]⟩

end GitopsSection

namespace LoggingSection

def read : Reader LoggingSection :=
  .record "LoggingFile" [.of "level" .string fun level _ => ⟨level⟩] ⟨""⟩

end LoggingSection

namespace ObservabilitySection

def read : Reader ObservabilitySection :=
  .record "ObservabilityFile"
    [.of "logging" (.optional LoggingSection.read) fun logging _ => ⟨logging⟩] ⟨none⟩

end ObservabilitySection

namespace File

def empty : File := ⟨none, none⟩

def read : Reader File :=
  .record "ConfigurationFile"
    [.of "gitops" (.optional GitopsSection.read) fun gitops file => { file with gitops },
      .of "observability" (.optional ObservabilitySection.read)
        fun observability file => { file with observability }]
    empty

def ofValue (value : Yaml.Value) : Except SchemaError File :=
  match value.untagged with
  | .null => .ok empty
  | _ => read value

end File

end ManifestRelay.Configuration
