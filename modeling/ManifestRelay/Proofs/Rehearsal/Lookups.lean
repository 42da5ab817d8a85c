import ManifestRelay.Proofs.Cache.Provenance
import ManifestRelay.Rehearsal.Backend

/-!
# Lookups do not interfere

A relay looks agents up through one cache and projects through another, for many streams at once.
What lookups about some questions notice is the same without all the others, slow,
failing or broken down as these may be.  What a lookup is answered without asking the service
was the answer to the very same question.
-/

namespace ManifestRelay.Rehearsal

open Cache Metadata

structure Lookups where
  agent : Nat → AgentToken
  project : Nat → AgentToken × String

inductive Caches.Act where
  | agents (act : Cache.Act MetadataError AgentInfo)
  | projects (act : Cache.Act MetadataError ProjectInfo)

inductive Caches.Event where
  | agents (event : Cache.Event AgentToken MetadataError AgentInfo)
  | projects (event : Cache.Event (AgentToken × String) MetadataError ProjectInfo)

namespace Caches.Event

def ofAgents? : Event → Option (Cache.Event AgentToken MetadataError AgentInfo)
  | .agents event => some event
  | .projects _ => none

def ofProjects? : Event → Option (Cache.Event (AgentToken × String) MetadataError ProjectInfo)
  | .agents _ => none
  | .projects event => some event

theorem bind_ofAgents?_agents (event : Option (Cache.Event AgentToken MetadataError AgentInfo)) :
    (event.map agents).bind ofAgents? = event := by
  cases event <;> rfl

theorem bind_ofProjects?_agents (event : Option (Cache.Event AgentToken MetadataError AgentInfo)) :
    (event.map agents).bind ofProjects? = none := by
  cases event <;> rfl

theorem bind_ofAgents?_projects
    (event : Option (Cache.Event (AgentToken × String) MetadataError ProjectInfo)) :
    (event.map projects).bind ofAgents? = none := by
  cases event <;> rfl

theorem bind_ofProjects?_projects
    (event : Option (Cache.Event (AgentToken × String) MetadataError ProjectInfo)) :
    (event.map projects).bind ofProjects? = event := by
  cases event <;> rfl

end Caches.Event

namespace Lookups

def agentLine (l : Lookups) (id : Nat) : Line AgentToken AgentInfo := .agent (l.agent id)

def projectLine (l : Lookups) (id : Nat) : Line (AgentToken × String) ProjectInfo :=
  .project (l.project id).1 (l.project id).2

def agentKey (l : Lookups) (id : Nat) : AgentToken := (l.agentLine id).key

def projectKey (l : Lookups) (id : Nat) : AgentToken × String := (l.projectLine id).key

/-- The agents that some questions are about. -/
def agentsOf (chosen : Question → Bool) (token : AgentToken) : Bool :=
  chosen (Line.agent token).question

/-- The projects that some questions are about, each with who asks. -/
def projectsOf (chosen : Question → Bool) (key : AgentToken × String) : Bool :=
  chosen (Line.project key.1 key.2).question

def isAbout (l : Lookups) (chosen : Question → Bool) : Caches.Act → Bool
  | .agents act => act.isFor l.agentKey (agentsOf chosen)
  | .projects act => act.isFor l.projectKey (projectsOf chosen)

def notices (l : Lookups) (chosen : Question → Bool) : Caches.Event → Bool
  | .agents event => event.isFor l.agentKey (agentsOf chosen)
  | .projects event => event.isFor l.projectKey (projectsOf chosen)

def machine (l : Lookups) : Machine Caches.Act Caches.Event Caches where
  attempt now caches
    | .agents act =>
        let (event, agents) := caches.agents.attempt l.agentKey now act
        (event.map .agents, { caches with agents })
    | .projects act =>
        let (event, projects) := caches.projects.attempt l.projectKey now act
        (event.map .projects, { caches with projects })
  duration
    | .agents act => act.duration
    | .projects act => act.duration

def unused (agents projects : Lifetimes) : Machine.Scene Caches.Event Caches :=
  ⟨0, .empty agents projects, []⟩

/-! ### Lookups that are not noticed -/

/-- Caches that lookups about some questions cannot tell apart, from an instant on. -/
structure Twins (l : Lookups) (chosen : Question → Bool) (now : Nat) (s t : Caches) : Prop where
  agents : Flights.Twins l.agentKey (agentsOf chosen) now s.agents t.agents
  projects : Flights.Twins l.projectKey (projectsOf chosen) now s.projects t.projects

theorem filter_map_agents (l : Lookups) (chosen : Question → Bool)
    (event : Option (Cache.Event AgentToken MetadataError AgentInfo)) :
    (event.map Caches.Event.agents).filter (l.notices chosen) =
      (event.filter (Event.isFor l.agentKey (agentsOf chosen))).map .agents :=
  Option.filter_map ..

theorem filter_map_projects (l : Lookups) (chosen : Question → Bool)
    (event : Option (Cache.Event (AgentToken × String) MetadataError ProjectInfo)) :
    (event.map Caches.Event.projects).filter (l.notices chosen) =
      (event.filter (Event.isFor l.projectKey (projectsOf chosen))).map .projects :=
  Option.filter_map ..

/-- Lookups about some questions do not notice those about others. -/
theorem unwinds (l : Lookups) (chosen : Question → Bool) :
    l.machine.Unwinds (l.notices chosen) (fun act => l.isAbout chosen act = false)
      (l.Twins chosen) where
  attempt {now _ _} twins act := by
    cases act with
    | agents act =>
        obtain ⟨hevent, hnext⟩ := (Flights.unwinds _ _).attempt twins.agents act
        refine ⟨?_, hnext, twins.projects.later (Nat.le_add_right now act.duration)⟩
        exact (l.filter_map_agents chosen _).trans
          ((congrArg _ hevent).trans (l.filter_map_agents chosen _).symm)
    | projects act =>
        obtain ⟨hevent, hnext⟩ := (Flights.unwinds _ _).attempt twins.projects act
        refine ⟨?_, twins.agents.later (Nat.le_add_right now act.duration), hnext⟩
        exact (l.filter_map_projects chosen _).trans
          ((congrArg _ hevent).trans (l.filter_map_projects chosen _).symm)
  hide {_ _ _} twins {act} hidden := by
    cases act with
    | agents act =>
        obtain ⟨hduration, hnone, hnext⟩ := (Flights.unwinds _ _).hide twins.agents (.inr hidden)
        exact ⟨hduration, (l.filter_map_agents chosen _).trans (congrArg _ hnone), hnext,
          twins.projects⟩
    | projects act =>
        obtain ⟨hduration, hnone, hnext⟩ := (Flights.unwinds _ _).hide twins.projects (.inr hidden)
        exact ⟨hduration, (l.filter_map_projects chosen _).trans (congrArg _ hnone), twins.agents,
          hnext⟩

/-! ### Where lookups have their answers from -/

/-- The part of a history that shows as events of one kind. -/
def historyOf {η θ : Type} (kind : θ → Option η) (shown : List (Nat × θ)) : List (Nat × η) :=
  shown.filterMap fun entry => (kind entry.2).map (entry.1, ·)

theorem historyOf_append {η θ : Type} (kind : θ → Option η) (shown : List (Nat × θ)) (now : Nat)
    (event : Option θ) : historyOf kind (shown ++ event.toList.map (now, ·)) =
      historyOf kind shown ++ (event.bind kind).toList.map (now, ·) := by
  rw [historyOf, List.filterMap_append]
  cases event with
  | none => rfl
  | some event => cases h : kind event <;> simp [h, historyOf]

def agentScene (c : Machine.Scene Caches.Event Caches) :
    Machine.Scene (Cache.Event AgentToken MetadataError AgentInfo)
      (Flights AgentToken MetadataError AgentInfo) :=
  ⟨c.now, c.state.agents, historyOf Caches.Event.ofAgents? c.shown⟩

def projectScene (c : Machine.Scene Caches.Event Caches) :
    Machine.Scene (Cache.Event (AgentToken × String) MetadataError ProjectInfo)
      (Flights (AgentToken × String) MetadataError ProjectInfo) :=
  ⟨c.now, c.state.projects, historyOf Caches.Event.ofProjects? c.shown⟩

/-! What an act at one cache is for either: for the other, time passes. -/

section Act

variable (l : Lookups) (c : Machine.Scene Caches.Event Caches)

theorem agentScene_perform_agents (act : Cache.Act MetadataError AgentInfo) :
    agentScene (l.machine.perform c (.agents act)) =
      (Flights.machine l.agentKey).perform (agentScene c) act := by
  refine congrArg (Machine.Scene.mk _ _) ?_
  rw [Machine.perform, historyOf_append]
  simp only [machine, Caches.Event.bind_ofAgents?_agents]
  rfl

theorem projectScene_perform_agents (act : Cache.Act MetadataError AgentInfo) :
    projectScene (l.machine.perform c (.agents act)) =
      ⟨c.now + act.duration, c.state.projects, (projectScene c).shown⟩ := by
  refine congrArg (Machine.Scene.mk _ _) ?_
  rw [Machine.perform, historyOf_append]
  simp only [machine, Caches.Event.bind_ofProjects?_agents]
  exact List.append_nil _

theorem agentScene_perform_projects (act : Cache.Act MetadataError ProjectInfo) :
    agentScene (l.machine.perform c (.projects act)) =
      ⟨c.now + act.duration, c.state.agents, (agentScene c).shown⟩ := by
  refine congrArg (Machine.Scene.mk _ _) ?_
  rw [Machine.perform, historyOf_append]
  simp only [machine, Caches.Event.bind_ofAgents?_projects]
  exact List.append_nil _

theorem projectScene_perform_projects (act : Cache.Act MetadataError ProjectInfo) :
    projectScene (l.machine.perform c (.projects act)) =
      (Flights.machine l.projectKey).perform (projectScene c) act := by
  refine congrArg (Machine.Scene.mk _ _) ?_
  rw [Machine.perform, historyOf_append]
  simp only [machine, Caches.Event.bind_ofProjects?_projects]
  rfl

end Act

/-- Both caches of a relay have given only answers that were loaded for the same key. -/
structure IsAccounted (l : Lookups) (c : Machine.Scene Caches.Event Caches) : Prop where
  agents : Flights.IsAccounted l.agentKey (agentScene c)
  projects : Flights.IsAccounted l.projectKey (projectScene c)

namespace IsAccounted

variable {l : Lookups} {c : Machine.Scene Caches.Event Caches}

theorem unused (agents projects : Lifetimes) : l.IsAccounted (unused agents projects) :=
  ⟨.unused agents, .unused projects⟩

theorem perform (accounted : l.IsAccounted c) (act : Caches.Act) :
    l.IsAccounted (l.machine.perform c act) := by
  cases act with
  | agents act =>
      refine ⟨?_, ?_⟩
      · rw [agentScene_perform_agents]
        exact accounted.agents.perform act
      · rw [projectScene_perform_agents]
        exact accounted.projects.later act.duration
  | projects act =>
      refine ⟨?_, ?_⟩
      · rw [agentScene_perform_projects]
        exact accounted.agents.later act.duration
      · rw [projectScene_perform_projects]
        exact accounted.projects.perform act

end IsAccounted

/-- Equal keys are of equal questions, so that answers for a key are answers to its question. -/
theorem answersAreOwn_agents {l : Lookups}
    {history : List (Nat × Cache.Event AgentToken MetadataError AgentInfo)}
    (own : Flights.AnswersAreOwn l.agentKey history) :
    Flights.AnswersAreOwn (fun id => (l.agentLine id).question) history := by
  intro before time id answer after h
  obtain ⟨earlier, loader, hmem, hkey⟩ := own before time id answer after h
  exact ⟨earlier, loader, hmem, congrArg Question.agent hkey⟩

theorem answersAreOwn_projects {l : Lookups}
    {history : List (Nat × Cache.Event (AgentToken × String) MetadataError ProjectInfo)}
    (own : Flights.AnswersAreOwn l.projectKey history) :
    Flights.AnswersAreOwn (fun id => (l.projectLine id).question) history := by
  intro before time id answer after h
  obtain ⟨earlier, loader, hmem, hkey⟩ := own before time id answer after h
  exact ⟨earlier, loader, hmem,
    congrArg (fun key : AgentToken × String => Question.project key.1 key.2) hkey⟩

/-- Keys do not interfere.  What calls for some keys of a cache notice, and when, is the same
without the calls for all other keys.  So what a relay's lookups about some questions notice, as
those of one agent, is the same without all other lookups; and a lookup that is answered without
asking is answered what a lookup with the same question was. -/
theorem run_without_others {κ ε ν : Type} [DecidableEq κ] (lifetimes : Lifetimes)
    (keyOf : Nat → κ) (chosen : κ → Bool) (driver : Driver (Act ε ν) (Event κ ε ν))
    (agents projects : Lifetimes) (l : Lookups) (questions : Question → Bool)
    (streams : Driver Caches.Act Caches.Event) (turns : Nat) :
    let crowded := (Flights.machine keyOf).run (Event.isFor keyOf chosen) driver
      (Flights.unused lifetimes) turns
    let alone := (Flights.machine keyOf).run (Event.isFor keyOf chosen)
      (driver.only (Act.isFor keyOf chosen)) (Flights.unused lifetimes) turns
    let busy := l.machine.run (l.notices questions) streams (unused agents projects) turns
    let quiet := l.machine.run (l.notices questions) (streams.only (l.isAbout questions))
      (unused agents projects) turns
    (crowded.noticed (Event.isFor keyOf chosen) = alone.noticed (Event.isFor keyOf chosen) ∧
      crowded.now = alone.now) ∧
    (busy.noticed (l.notices questions) = quiet.noticed (l.notices questions) ∧
      busy.now = quiet.now) ∧
    Flights.AnswersAreOwn (fun id => (l.agentLine id).question)
      (historyOf Caches.Event.ofAgents? busy.shown) ∧
    Flights.AnswersAreOwn (fun id => (l.projectLine id).question)
      (historyOf Caches.Event.ofProjects? busy.shown) := by
  intro crowded alone busy quiet
  have hkeys := (Flights.unwinds keyOf chosen).run_only (fun _ hdropped => .inr hdropped) driver
    (Flights.unused lifetimes) (Flights.twins_empty lifetimes keyOf chosen) turns
  have hlookups := (l.unwinds questions).run_only (fun _ hdropped => hdropped) streams
    (unused agents projects)
    ⟨Flights.twins_empty agents _ _, Flights.twins_empty projects _ _⟩ turns
  have haccounted := Machine.run_preserves l.machine (l.notices questions) l.IsAccounted
    (fun _ accounted => accounted.perform) streams (unused agents projects)
    (.unused agents projects) turns
  exact ⟨⟨hkeys.noticed, hkeys.now⟩, ⟨hlookups.noticed, hlookups.now⟩,
    answersAreOwn_agents haccounted.agents.own, answersAreOwn_projects haccounted.projects.own⟩

end Lookups

end ManifestRelay.Rehearsal
