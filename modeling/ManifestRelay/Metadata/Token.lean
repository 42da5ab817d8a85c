import ManifestRelay.Digest.Sha256

/-!
# Agent tokens

A token is the credential that an agent presents on every call. Logs show its
fingerprint, the first bytes of its digest, and never the token.
-/

namespace ManifestRelay.Metadata

structure AgentToken where
  secret : String
deriving DecidableEq, Repr, Inhabited

def hexByte (b : UInt8) : List Char :=
  [Nat.digitChar (b.toNat / 16), Nat.digitChar (b.toNat % 16)]

def hex (bytes : List UInt8) : String := String.ofList (bytes.flatMap hexByte)

namespace AgentToken

/-- The first six bytes of the token's digest. -/
def fingerprint (t : AgentToken) : String :=
  hex ((Digest.sha256 t.secret.toUTF8.toList).take 6)

/-- The form of a token that may be shown. -/
def shown (t : AgentToken) : String := s!"AgentToken({t.fingerprint})"

end AgentToken

end ManifestRelay.Metadata
