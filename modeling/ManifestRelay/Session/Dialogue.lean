import ManifestRelay.Fetch.Visitor
import ManifestRelay.Metadata.Token
import ManifestRelay.Relay.Lookup
import ManifestRelay.Snapshot.Fetcher
import ManifestRelay.Stream.Channel

/-!
# Dialogues with the surroundings

What a stream does is a dialogue: it asks its surroundings, goes on with the
answer, and notes things on the way.  The surroundings may be cut short before
they have answered, and then the dialogue ends there.
-/

namespace ManifestRelay.Session

open Fetch Metadata Relay
open ManifestRelay.Stream

/-- What a stream asks of its surroundings; `φ` is what it sends. -/
inductive Query (φ : Type) where
  | agent (token : AgentToken)
  | project (token : AgentToken) (id : String)
  /-- Compare the commit of a ref with the last one seen; no name is the default branch. -/
  | poll (server : RepositoryServer) (repository : Repository) (last name : String)
  | file (server : RepositoryServer) (repository : Repository) (revision path : String)
      (limit : Int)
  | visit (server : RepositoryServer) (repository : Repository) (revision directory : String)
      (recursive : Bool)
  | send (frame : φ)
deriving DecidableEq, Repr

@[reducible] def Query.Answer {φ : Type} : Query φ → Type
  | .agent _ => Except MetadataError AgentInfo
  | .project .. => Except MetadataError ProjectInfo
  | .poll .. => Except FetchError PollInfo
  | .file .. => Except FetchError (Option (List UInt8))
  | .visit .. => Walk
  | .send _ => Except SendError Unit

/-- A dialogue that ends with a value of `α`. -/
inductive Dialogue (φ α : Type) where
  | done (a : α)
  | note (note : Note) (next : Dialogue φ α)
  | ask (query : Query φ) (next : query.Answer → Dialogue φ α)

namespace Dialogue

variable {φ α β : Type}

def bind : Dialogue φ α → (α → Dialogue φ β) → Dialogue φ β
  | .done a, f => f a
  | .note n next, f => .note n (next.bind f)
  | .ask query next, f => .ask query fun answer => (next answer).bind f

instance : Monad (Dialogue φ) where
  pure := .done
  bind := .bind

def request (query : Query φ) : Dialogue φ query.Answer := .ask query .done

def notes : List Note → Dialogue φ Unit
  | [] => .done ()
  | n :: rest => .note n (notes rest)

end Dialogue

/-- The other side of dialogues, with states in `σ`. -/
structure Surroundings (σ φ : Type) where
  /-- Answer a query, unless cut short. -/
  answer : (query : Query φ) → σ → Option query.Answer × σ
  record : Note → σ → σ

namespace Dialogue

variable {σ φ α : Type}

/-- Carry on a dialogue to its end, or until the surroundings are cut short. -/
def run (surroundings : Surroundings σ φ) : Dialogue φ α → σ → Option α × σ
  | .done a, s => (some a, s)
  | .note n next, s => next.run surroundings (surroundings.record n s)
  | .ask query next, s =>
      match surroundings.answer query s with
      | (some answer, s) => (next answer).run surroundings s
      | (none, s) => (none, s)

end Dialogue

/-- A dialogue that may end its stream with a status. -/
abbrev Exchange (φ : Type) := ExceptT Status (Dialogue φ)

namespace Exchange

variable {φ α : Type}

def request (query : Query φ) : Exchange φ query.Answer := ExceptT.lift (Dialogue.request query)

def notes (notes : List Note) : Exchange φ Unit := ExceptT.lift (Dialogue.notes notes)

def log (level : Level) (text : String) : Exchange φ Unit := Exchange.notes [logged level text]

def fail (notes : List Note) (status : Status) : Exchange φ α := do
  Exchange.notes notes
  throw status

/-- Note what is to be noted on an answer, and go on with it or end the stream. -/
def accept (j : Judgement α) : Exchange φ (Option α) := do
  Exchange.notes j.notes
  match j.result with
  | .ok answer => pure answer
  | .error status => throw status

/-- Ask for the agent of a token; a stream that is tolerant goes on without an answer. -/
def agent (token : AgentToken) (tolerant : Bool) : Exchange φ (Option AgentInfo) := do
  let answer : Except MetadataError AgentInfo ← Exchange.request (.agent token)
  let judgement := judgeAgent answer
  accept (if tolerant then judgement else judgement.strict)

def project (token : AgentToken) (id : String) : Exchange φ (Option ProjectInfo) := do
  let answer : Except MetadataError ProjectInfo ← Exchange.request (.project token id)
  accept (judgeProject answer)

def sendFailed : Status := ⟨.unavailable, "gRPC send failed"⟩

def send (failureText : String) (frame : φ) : Exchange φ Unit := do
  let answer : Except SendError Unit ← Exchange.request (.send frame)
  match answer with
  | .ok () => pure ()
  | .error e => fail (sendFailure failureText e.message) sendFailed

end Exchange

end ManifestRelay.Session
