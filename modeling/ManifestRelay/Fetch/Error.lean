import ManifestRelay.Text.Quoted

/-!
# Failures of repository access

A failure is a user error when the repository or the request caused it; every
other failure is the relay's or its backend's own.
-/

namespace ManifestRelay.Fetch

inductive FetchError where
  | notFound (path : String)
  | fileTooBig (path : String) (size : Nat) (limit : Int)
  | unexpectedEntry (path : String)
  | globRefused (glob reason : String)
  | tooManyFiles (limit : Nat)
  | duplicatePath (path : String)
  | refNotFound (name : String)
  | noDefaultBranch
  | sendFailed (reason : String)
  | broken (reason : String)
  | io (reason : String)
deriving DecidableEq, Repr, Inhabited

namespace FetchError

def message : FetchError → String
  | .notFound path => s!"path not found: {path}"
  | .fileTooBig path size limit =>
      s!"file {path} is too big: {size} bytes, limit {limit} bytes"
  | .unexpectedEntry path => s!"unexpected tree entry type at {path}"
  | .globRefused glob reason => s!"glob {glob} match failed: {reason}"
  | .tooManyFiles limit => s!"maximum number of manifest files limit reached: {limit}"
  | .duplicatePath path => s!"path visited more than once: {path}"
  | .refNotFound name => s!"ref {Text.quoted name} not found"
  | .noDefaultBranch => "default branch not found"
  | .sendFailed reason => s!"stream send failed: {reason}"
  | .broken reason => s!"internal error: {reason}"
  | .io reason => s!"I/O error: {reason}"

/-- Whether the repository or the request caused the failure. -/
def isUserError : FetchError → Bool
  | .notFound _ | .fileTooBig .. | .unexpectedEntry _ | .globRefused .. | .tooManyFiles _
  | .duplicatePath _ => true
  | .refNotFound _ | .noDefaultBranch | .sendFailed _ | .broken _ | .io _ => false

end FetchError

end ManifestRelay.Fetch
