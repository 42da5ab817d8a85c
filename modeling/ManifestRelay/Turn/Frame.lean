import ManifestRelay.Stream.Status

/-!
# Frames of a synchronization turn

A turn tells an agent the manifests of one commit: its headers, any number of
pieces of files, and its trailers.
-/

namespace ManifestRelay.Turn

inductive Frame where
  | headers (commit : String)
  | object (source : String) (data : List UInt8)
  | trailers
deriving DecidableEq, Repr, Inhabited

end ManifestRelay.Turn
