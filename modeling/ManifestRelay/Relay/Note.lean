import ManifestRelay.Configuration.Settings
import ManifestRelay.Fetch.Error
import ManifestRelay.Metadata.Error

/-!
# What the relay notes

Failures are noted by who is to blame.  A failure that a user caused is logged
for information; one that nobody expected is logged as an error and captured
for inspection; and a caller that went away is not worth a word.
-/

namespace ManifestRelay.Relay

inductive Level where
  | debug
  | info
  | warning
  | error
deriving DecidableEq, Repr, Inhabited

def Level.name : Level → String
  | .debug => "DEBUG"
  | .info => "INFO"
  | .warning => "WARN"
  | .error => "ERROR"

inductive Note where
  | log (level : Level) (text : String) (reason : Option String)
  /-- An unexpected failure, kept for inspection. -/
  | captured (text reason : String)
  | delivered
deriving DecidableEq, Repr, Inhabited

inductive Blame where
  | caller
  | user
  | relay
deriving DecidableEq, Repr

def Blame.ofUserError (isUserError : Bool) : Blame := if isUserError then .user else .relay

def logged (level : Level) (text : String) : Note := .log level text none

def unexpected (text reason : String) : List Note :=
  [.log .error text (some reason), .captured text reason]

def failure (text : String) (blame : Blame) (reason : String) : List Note :=
  match blame with
  | .caller => []
  | .user => [.log .info text (some reason)]
  | .relay => unexpected text reason

def fetchFailure (text : String) (e : Fetch.FetchError) : List Note :=
  failure text (.ofUserError e.isUserError) e.message

def metadataFailure (text : String) (e : Metadata.MetadataError) : List Note :=
  failure text (if e = .cancelled then .caller else .relay) e.message

/-- The notes on a refused configuration file, which is always its user's. -/
def configurationFailure (text : String) (e : Configuration.ConfigurationError) : List Note :=
  failure text .user e.message

def sendFailure (text reason : String) : List Note := [.log .debug text (some reason)]

end ManifestRelay.Relay
