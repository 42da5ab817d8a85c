import ManifestRelay.Metadata.Token
import ManifestRelay.Stream.Status
import ManifestRelay.Text.Utf8

/-!
# Authorization of calls

A call presents its token in the first value of its `authorization` metadata,
as the scheme `bearer` in any case, one space, and the token.
-/

namespace ManifestRelay.Service

open Metadata
open ManifestRelay.Stream

/-- Whether a byte is a visible character of ASCII, a space or a tab. -/
def isVisible (b : UInt8) : Bool := (0x20 ≤ b && b < 0x7F) || b = 0x09

def unauthenticated (text : String) : Status := ⟨.unauthenticated, text⟩

def bearerToken (value : List Char) : Option AgentToken :=
  match value.dropWhile (· != ' ') with
  | ' ' :: first :: rest =>
      if (value.takeWhile (· != ' ')).map Char.toLower = "bearer".toList then
        some ⟨String.ofList (first :: rest)⟩
      else none
  | _ => none

/-- The token of a call with these values of its metadata. -/
def tokenOf : List (List UInt8) → Except Status AgentToken
  | [] => .error (unauthenticated "authorization metadata is required")
  | value :: _ =>
      if !value.all isVisible then .error (unauthenticated "malformed authorization metadata")
      else
        match bearerToken (value.map fun b => Char.ofNat b.toNat) with
        | some token => .ok token
        | none => .error (unauthenticated "bearer token is required")

def admitProject (projectId : String) : Except Status Unit :=
  if projectId = "" then .error ⟨.invalidArgument, "project_id is required"⟩ else .ok ()

end ManifestRelay.Service
