import ManifestRelay.Metadata.Info
import ManifestRelay.Relay.Note
import ManifestRelay.Stream.Status

/-!
# Judging answers of the metadata service

A refused credential ends the stream that presented it.  Any other failure is
noted; whether the stream can live with it depends on what was asked.
-/

namespace ManifestRelay.Relay

open Metadata
open ManifestRelay.Stream

def unavailable : Status := ⟨.unavailable, "unavailable"⟩

/-- The status that a failure forces on the stream, if it does. -/
def refusal : MetadataError → Option Status
  | .cancelled => some unavailable
  | .forbidden => some ⟨.permissionDenied, "forbidden"⟩
  | .unauthorized => some ⟨.unauthenticated, "unauthenticated"⟩
  | .unexpected .. => none

/-- Notes on an answer and what the stream makes of it: the status that ends it, or the
answer if there is one. -/
structure Judgement (α : Type) where
  notes : List Note
  result : Except Status (Option α)

/-- Judge an answer that the stream can do without for now. -/
def judge {α : Type} (text : String) : Except MetadataError α → Judgement α
  | .ok answer => ⟨[], .ok (some answer)⟩
  | .error e =>
      match refusal e with
      | some status => ⟨[], .error status⟩
      | none => ⟨unexpected text e.message, .ok none⟩

def judgeAgent (answer : Except MetadataError AgentInfo) : Judgement AgentInfo :=
  judge "GetAgentInfo()" answer

def judgeProject (answer : Except MetadataError ProjectInfo) : Judgement ProjectInfo :=
  judge "GetProjectInfo()" answer

/-- A stream that cannot do without the answer ends. -/
def Judgement.strict {α : Type} (j : Judgement α) : Judgement α :=
  match j.result with
  | .ok none => { j with result := .error unavailable }
  | _ => j

end ManifestRelay.Relay
