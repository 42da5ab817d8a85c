import ManifestRelay.Rehearsal.Backend

/-!
# Rehearsing lookups

One caller asks for agents and projects, one question after another, and hands
in failures to be noted.
-/

namespace ManifestRelay.Rehearsal.LookupTrial

open Metadata Relay
open ManifestRelay.Stream

inductive Step where
  | agent (token : AgentToken) (tolerant : Bool)
  | project (token : AgentToken) (id : String)
  | setAgent (answer : Except MetadataError AgentInfo)
  | setProject (answer : Except MetadataError ProjectInfo)
  | advance (duration : Nat)
  | cancel
  /-- A failure that has notes of its own. -/
  | failed (notes : List Note)
  | sendFailed (text reason : String)

inductive Shown where
  | nothing
  | agent (result : Except Status (Option AgentInfo))
  | project (result : Except Status (Option ProjectInfo))
  | status (status : Status)

/-- The desk, the time, and what was noted since the last step. -/
structure State where
  desk : Desk
  now : Nat
  cancelled : Bool
  questions : List (Nat × Question)
  notes : List Note

namespace State

def initial (agents projects : Cache.Lifetimes) (agentDelay projectDelay : Nat) : State :=
  ⟨⟨.sample agentDelay projectDelay, .empty agents projects⟩, 0, false, [], []⟩

def caller : Caller State where
  now := (·.now)
  isCancelled := (·.cancelled)
  wait duration s := (true, { s with now := s.now + duration })
  note question s := { s with questions := s.questions ++ [(s.now, question)] }
  desk := (·.desk)
  putDesk desk s := { s with desk }

def addNotes (s : State) (notes : List Note) : State := { s with notes := s.notes ++ notes }

def performStep (s : State) : Step → Shown × State
  | .agent token tolerant =>
      match caller.ask (.agent token) s with
      | (none, s) => (.nothing, s)
      | (some answer, s) =>
          let judgement := judgeAgent answer
          let judgement := if tolerant then judgement else judgement.strict
          (.agent judgement.result, s.addNotes judgement.notes)
  | .project token id =>
      match caller.ask (.project token id) s with
      | (none, s) => (.nothing, s)
      | (some answer, s) =>
          let judgement := judgeProject answer
          (.project judgement.result, s.addNotes judgement.notes)
  | .setAgent agent => (.nothing, { s with desk.backend.agent := agent })
  | .setProject project => (.nothing, { s with desk.backend.project := project })
  | .advance duration => (.nothing, { s with now := s.now + duration })
  | .cancel => (.nothing, { s with cancelled := true })
  | .failed notes => (.nothing, s.addNotes notes)
  | .sendFailed text reason =>
      (.status ⟨.unavailable, "gRPC send failed"⟩, s.addNotes (sendFailure text reason))

/-- Carry out a step, with nothing noted before. -/
def perform (s : State) (step : Step) : Shown × State :=
  performStep { s with questions := [], notes := [] } step

end State

end ManifestRelay.Rehearsal.LookupTrial
