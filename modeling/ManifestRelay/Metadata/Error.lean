/-!
# Failures of metadata lookups
-/

namespace ManifestRelay.Metadata

inductive MetadataError where
  | unauthorized
  | forbidden
  /-- An unexpected answer, with its status if there was one. -/
  | unexpected (status : Option Nat) (reason : String)
  | cancelled
deriving DecidableEq, Repr, Inhabited

namespace MetadataError

def statusText : Option Nat → String
  | some status => s!"Some({status})"
  | none => "None"

def message : MetadataError → String
  | .unauthorized => "unauthorized"
  | .forbidden => "forbidden"
  | .unexpected status reason => s!"metadata API error (status {statusText status}): {reason}"
  | .cancelled => "request cancelled"

def isServerError : MetadataError → Bool
  | .unexpected (some status) _ => 500 ≤ status && status < 600
  | _ => false

end MetadataError

end ManifestRelay.Metadata
