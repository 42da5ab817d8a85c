import ManifestRelay.Cache.Flight
import ManifestRelay.Metadata.Info
import ManifestRelay.Metadata.Token
import ManifestRelay.Relay.Lookup

/-!
# A scripted metadata service behind its caches

The service answers every question of a kind alike, after some time, until it
is told another answer.  The relay asks it through one cache for agents and one
for projects.
-/

namespace ManifestRelay.Rehearsal

open Cache Metadata

inductive Question where
  | agent (token : AgentToken)
  | project (token : AgentToken) (id : String)
deriving DecidableEq, Repr

structure Backend where
  agent : Except MetadataError AgentInfo
  project : Except MetadataError ProjectInfo
  agentDelay : Nat
  projectDelay : Nat

namespace Backend

def sampleServer : RepositoryServer := ⟨"tcp://gitaly:8075", "gt", []⟩

def sampleAgent : AgentInfo :=
  ⟨7, 1, "my-agent", sampleServer, ⟨"default", "group/agent.git", "", "group/agent"⟩⟩

def sampleProject : ProjectInfo :=
  ⟨2, sampleServer, ⟨"default", "group/manifests.git", "", "group/manifests"⟩⟩

def sample (agentDelay projectDelay : Nat) : Backend :=
  ⟨.ok sampleAgent, .ok sampleProject, agentDelay, projectDelay⟩

end Backend

structure Caches where
  agents : Flights AgentToken MetadataError AgentInfo
  projects : Flights (AgentToken × String) MetadataError ProjectInfo

namespace Caches

def empty (agents projects : Lifetimes) : Caches := ⟨.empty agents, .empty projects⟩

/-- When the sweepers of both caches have returned that are stopped at an instant. -/
def sweepersEnd (agents projects : Lifetimes) (stop : Nat) : Nat :=
  if agents.isEnabled || projects.isEnabled then stop else 0

end Caches

/-- The service and the caches in front of it. -/
structure Desk where
  backend : Backend
  caches : Caches

/-- A way to ask one kind of question through its cache. -/
structure Line (κ ν : Type) where
  key : κ
  question : Question
  cache : Caches → Flights κ MetadataError ν
  putCache : Flights κ MetadataError ν → Caches → Caches
  answer : Backend → Except MetadataError ν
  delay : Backend → Nat

namespace Line

def agent (token : AgentToken) : Line AgentToken AgentInfo where
  key := token
  question := .agent token
  cache := Caches.agents
  putCache agents caches := { caches with agents }
  answer := Backend.agent
  delay := Backend.agentDelay

def project (token : AgentToken) (id : String) : Line (AgentToken × String) ProjectInfo where
  key := (token, id)
  question := .project token id
  cache := Caches.projects
  putCache projects caches := { caches with projects }
  answer := Backend.project
  delay := Backend.projectDelay

end Line

structure Caller (σ : Type) where
  now : σ → Nat
  isCancelled : σ → Bool
  /-- Let time pass; false if that is cut short. -/
  wait : Nat → σ → Bool × σ
  note : Question → σ → σ
  desk : σ → Desk
  putDesk : Desk → σ → σ

namespace Caller

variable {σ κ ν : Type}

def putCache (caller : Caller σ) (line : Line κ ν) (cache : Flights κ MetadataError ν) (s : σ) :
    σ :=
  let desk := caller.desk s
  caller.putDesk { desk with caches := line.putCache cache desk.caches } s

variable [DecidableEq κ]

def settle (caller : Caller σ) (line : Line κ ν) (answer : Option (Except MetadataError ν))
    (s : σ) : σ :=
  caller.putCache line
    ((line.cache (caller.desk s).caches).settle 0 answer (caller.now s)) s

/-- Ask a question through its cache; nothing if the wait is cut short. -/
def ask (caller : Caller σ) (line : Line κ ν) (s : σ) : Option (Except MetadataError ν) × σ :=
  match (line.cache (caller.desk s).caches).receive 0 line.key (caller.isCancelled s)
      (caller.now s) with
  | (.cancelled, cache) => (some (.error .cancelled), caller.putCache line cache s)
  | (.answered answer, cache) => (some answer, caller.putCache line cache s)
  | (.load, cache) =>
      match caller.wait (line.delay (caller.desk s).backend)
          (caller.note line.question (caller.putCache line cache s)) with
      | (false, s) => (none, caller.settle line none s)
      | (true, s) =>
          let answer := line.answer (caller.desk s).backend
          (some answer, caller.settle line (some answer) s)

end Caller

end ManifestRelay.Rehearsal
