/-!
# How a streaming call fails

A call that does not end well ends with a status: a code for programs and a
message for people.
-/

namespace ManifestRelay.Stream

inductive Code where
  | unauthenticated
  | permissionDenied
  | unavailable
  | invalidArgument
  | failedPrecondition
  | internal
  | aborted
deriving DecidableEq, Repr, Inhabited

structure Status where
  code : Code
  message : String
deriving DecidableEq, Repr, Inhabited

end ManifestRelay.Stream
