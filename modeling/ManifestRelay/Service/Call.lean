import ManifestRelay.Service.Authorization
import ManifestRelay.Session.ConfigurationStream
import ManifestRelay.Session.ManifestStream

/-!
# Calls of the service

A call is refused at once or opens a stream.  Its token is looked at first and
its request after that.
-/

namespace ManifestRelay.Service

open Session Turn Wire
open ManifestRelay.Stream

/-- Items that a served stream holds for its reader. -/
def streamCapacity : Nat := 4

def openConfigurations (settings : Settings) (authorization : List (List UInt8))
    (request : ConfigurationRequest) : Except Status (Plan ConfigurationResponse Unit) := do
  let token ← tokenOf authorization
  return ConfigurationStream.plan settings token request.commit

def openManifests (settings : Settings) (authorization : List (List UInt8))
    (request : ObjectsRequest) : Except Status (Plan Frame (List String)) := do
  let token ← tokenOf authorization
  admitProject request.projectId
  return ManifestStream.plan settings token request.projectId request.globs request.commit

end ManifestRelay.Service
