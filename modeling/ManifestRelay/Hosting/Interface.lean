import ManifestRelay.Document.Reader
import ManifestRelay.Document.Writer
import ManifestRelay.Http.Exchange
import ManifestRelay.Http.Login
import ManifestRelay.Http.Status
import ManifestRelay.Metadata.Error
import ManifestRelay.Metadata.Info
import ManifestRelay.Metadata.Token
import ManifestRelay.Usage.Counters

/-!
# The interface of the hosting service

The hosting service tells about agents and projects to whoever presents an
agent's token, and takes in counts of usage from anyone.
-/

namespace ManifestRelay.Hosting

open Document Http Metadata Usage

/-! ### Requests -/

def withoutSlashes (address : String) : String :=
  String.ofList (address.toList.reverse.dropWhile (· = '/')).reverse

def agentPath : String := "/api/v4/internal/kubernetes/agent_info"

def projectPath : String := "/api/v4/internal/kubernetes/project_info"

def usagePath : String := "/api/v4/internal/kubernetes/usage_metrics"

/-- The location of a path at the service of an address, and the credentials that the address
names. -/
def locationAt (address path : String) : Option (Option String × Location) :=
  (Location.read? (withoutSlashes address ++ path)).map Location.takeLogin

def credentials (token : AgentToken) : Option String :=
  let value := s!"Bearer {token.secret}"
  if (Text.Utf8.encode value.toList).all isLineByte then some value else none

/-- A question in the name of a token, whatever credentials the address names. -/
def question (token : AgentToken) (location : Location) : Option Request := do
  if !location.isCarried then none
  return ⟨.get, location, some (← credentials token), none⟩

def agentRequest (address : String) (token : AgentToken) : Option Request := do
  let (_, location) ← locationAt address agentPath
  question token location

def projectRequest (address : String) (token : AgentToken) (id : String) : Option Request := do
  let (_, location) ← locationAt address projectPath
  question token (location.withField "id" id)

def usageDocument (amounts : Amounts) : String :=
  writeObject [("counters", writeObject (amounts.map fun (name, n) => (name, writeInteger n)))]

def usageRequest (address : String) (amounts : Amounts) : Option Request := do
  let (credentials, location) ← locationAt address usagePath
  return ⟨.post, location, credentials, some (usageDocument amounts)⟩

/-! ### Answers -/

def noAnswer : MetadataError := .unexpected none "no usable answer"

/-- Accept a response that tells of success. -/
def accept : Option Response → Except MetadataError Response
  | none => .error noAnswer
  | some r =>
      if r.isSuccess then .ok r
      else if r.status = 401 then .error .unauthorized
      else if r.status = 403 then .error .forbidden
      else .error (.unexpected (some r.status) s!"unexpected status code {statusText r.status}")

def optionalText : Option Value → Option String
  | none => some ""
  | some value => value.text?

def serverOf (value : Value) : Option RepositoryServer := do
  match ← value.fields? ["address", "token", "features"] with
  | [some address, token, features] =>
      return ⟨← address.text?, ← optionalText token,
        ← match features with | none => some [] | some table => table.table?⟩
  | _ => none

def repositoryOf (value : Value) : Option Repository := do
  match ← value.fields? ["storage_name", "relative_path", "gl_repository", "gl_project_path"] with
  | [some storage, some path, name, project] =>
      return ⟨← storage.text?, ← path.text?, ← optionalText name, ← optionalText project⟩
  | _ => none

def agentOf (value : Value) : Option AgentInfo := do
  match ← value.fields? ["project_id", "agent_id", "agent_name", "gitaly_info",
      "gitaly_repository"] with
  | [some project, some id, some name, some server, some repository] =>
      return ⟨← id.integer?, ← project.integer?, ← name.text?, ← serverOf server,
        ← repositoryOf repository⟩
  | _ => none

def projectOf (value : Value) : Option ProjectInfo := do
  match ← value.fields? ["project_id", "gitaly_info", "gitaly_repository"] with
  | [some project, some server, some repository] =>
      return ⟨← project.integer?, ← serverOf server, ← repositoryOf repository⟩
  | _ => none

def answer {α : Type} (read : Value → Option α) (response : Option Response) :
    Except MetadataError α := do
  let r ← accept response
  match r.body.bind Value.read |>.bind read with
  | some a => .ok a
  | none => .error noAnswer

def agentAnswer : Option Response → Except MetadataError AgentInfo := answer agentOf

def projectAnswer : Option Response → Except MetadataError ProjectInfo := answer projectOf

def usageAnswer (response : Option Response) : Except MetadataError Unit :=
  (accept response).map fun _ => ()

end ManifestRelay.Hosting
