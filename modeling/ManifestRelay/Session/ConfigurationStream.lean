import ManifestRelay.Session.Plan
import ManifestRelay.Session.Settings
import ManifestRelay.Wire.Message

/-!
# The stream of configurations

At every tick the stream looks up its agent, polls the agent's repository and,
if it has a new commit, sends the configuration of that commit.  A commit whose
configuration cannot be used is passed over if its users are to blame; in any
other case it is tried again at the next tick.
-/

namespace ManifestRelay.Session

open Fetch Metadata Relay
open ManifestRelay.Configuration
open ManifestRelay.Wire (ConfigurationResponse)

namespace ConfigurationStream

/-- Why a commit yields no configuration. -/
inductive Obstacle where
  | file (e : FetchError)
  | configuration (e : ConfigurationError)

namespace Obstacle

def message : Obstacle → String
  | .file e => s!"agent configuration file: {e.message}"
  | .configuration e => e.message

def isUserError : Obstacle → Bool
  | .file e => e.isUserError
  | .configuration _ => true

def notes (text : String) (o : Obstacle) : List Note :=
  failure text (.ofUserError o.isUserError) o.message

end Obstacle

/-- The configuration in a fetched file, which may be missing. -/
def configurationOf (path : String) :
    Except FetchError (Option (List UInt8)) → Except Obstacle AgentConfiguration
  | .error e => .error (.file e)
  | .ok none => .error (.file (.notFound path))
  | .ok (some data) => (AgentConfiguration.parse data).mapError .configuration

def tick (settings : Settings) (token : AgentToken) (cursor : String) :
    Exchange ConfigurationResponse String := do
  let some agent ← Exchange.agent token true | return cursor
  let polled : Except FetchError PollInfo ←
    Exchange.request (.poll agent.server agent.repository cursor "")
  match polled with
  | .error e =>
      Exchange.notes (fetchFailure "Config: repository poll failed" e)
      return cursor
  | .ok ⟨false, _⟩ =>
      Exchange.log .debug "Config: no updates"
      return cursor
  | .ok ⟨true, commit⟩ =>
      Exchange.log .info "Config: new commit"
      let path := filePath agent.name
      let fetched : Except FetchError (Option (List UInt8)) ←
        Exchange.request
          (.file agent.server agent.repository commit path settings.maxConfigurationSize)
      match configurationOf path fetched with
      | .error obstacle =>
          Exchange.notes (obstacle.notes "Config: failed to fetch")
          return if obstacle.isUserError then commit else cursor
      | .ok configuration =>
          Exchange.send "Config: failed to send config" ⟨some configuration, commit⟩
          return commit

/-- The stream of one agent from the commit that it has. -/
def plan (settings : Settings) (token : AgentToken) (commit : String) :
    Plan ConfigurationResponse Unit where
  opening := pure ()
  tick _ := tick settings token
  interval := settings.configurationPollPeriod
  maxAge := settings.maxConnectionAge
  cursor := commit

end ConfigurationStream

end ManifestRelay.Session
