import ManifestRelay.Proofs.Session.Settling

/-!
# Failures and what is captured of them

A record of what a stream was answered tells which of its steps have failed.  Failures that nobody
expected are captured for inspection, with the text of the step and the message of the failure; the
others are not: refused credentials, callers that went away, users' own mistakes and frames that
could not be sent.
-/

namespace ManifestRelay

open Fetch Metadata Relay
open ManifestRelay.Configuration
open ManifestRelay.Stream

/-! ### Notes -/

/-- The text and the reason of a failure that is kept for inspection. -/
def Relay.Note.capture? : Note → Option (String × String)
  | .captured text reason => some (text, reason)
  | .log .. | .delivered => none

def Metadata.MetadataError.isUnexpected : MetadataError → Bool
  | .unexpected .. => true
  | .unauthorized | .forbidden | .cancelled => false

def Fetch.FetchError.isSendFailed : FetchError → Bool
  | .sendFailed _ => true
  | _ => false

namespace Session

variable {φ α : Type}

def Event.capture? : Event φ → Option (String × String)
  | .noted note => note.capture?
  | .answered .. => none

def captured (events : List (Event φ)) : List (String × String) := events.filterMap Event.capture?

theorem captured_append (first rest : List (Event φ)) :
    captured (first ++ rest) = captured first ++ captured rest :=
  List.filterMap_append

/-! ### Failures -/

inductive Failure where
  | agent (e : MetadataError)
  | project (e : MetadataError)
  | poll (e : FetchError)
  /-- The file with a configuration could not be fetched, or is not there. -/
  | file (e : FetchError)
  /-- A file holds no configuration, or one that is not valid. -/
  | configuration (e : ConfigurationError)
  | walk (e : FetchError)
  | send (e : SendError)

def Failure.capture? (pollText : String) : Failure → Option (String × String)
  | .agent e => if e.isUnexpected then some ("GetAgentInfo()", e.message) else none
  | .project e => if e.isUnexpected then some ("GetProjectInfo()", e.message) else none
  | .poll e => if e.isUserError then none else some (pollText, e.message)
  | .file e =>
      if e.isUserError then none
      else some ("Config: failed to fetch", s!"agent configuration file: {e.message}")
  | .configuration _ => none
  | .walk e =>
      if e.isUserError || e.isSendFailed then none
      else some ("GitOps: failed to get objects to synchronize", e.message)
  | .send _ => none

theorem Failure.filterMap_capture?_toList (pollText : String) (failure : Option Failure) :
    failure.toList.filterMap (capture? pollText) = (failure.bind (capture? pollText)).toList := by
  cases failure with
  | none => rfl
  | some failure =>
      rw [Option.toList_some, Option.bind_some]
      cases hcapture : failure.capture? pollText with
      | none => exact List.filterMap_cons_none hcapture
      | some words => exact List.filterMap_cons_some hcapture

/-- The failure to get a configuration from what came of its file. -/
def Failure.ofFile? (path : String) : Except FetchError (Option (List UInt8)) → Option Failure
  | .error e => some (.file e)
  | .ok none => some (.file (.notFound path))
  | .ok (some data) =>
      match AgentConfiguration.parse data with
      | .error e => some (.configuration e)
      | .ok _ => none

/-- The failure of a step that is over with an answer; walks are not. -/
def Event.failure? : Event φ → Option Failure
  | .answered (.agent _) (.error e) => some (.agent e)
  | .answered (.project ..) (.error e) => some (.project e)
  | .answered (.poll ..) (.error e) => some (.poll e)
  | .answered (.file _ _ _ path _) fetched => Failure.ofFile? path fetched
  | .answered (.send _) (.error e) => some (.send e)
  | _ => none

/-! ### Notes on failures -/

theorem captured_map_noted (notes : List Note) :
    captured (notes.map .noted : List (Event φ)) = notes.filterMap Note.capture? :=
  List.filterMap_map

theorem captured_cons_answered (query : Query φ) (answer : query.Answer) (rest : List (Event φ)) :
    captured (.answered query answer :: rest) = captured rest :=
  List.filterMap_cons_none rfl

theorem failure?_map_noted (notes : List Note) :
    (notes.map .noted : List (Event φ)).filterMap Event.failure? = [] := by
  rw [List.filterMap_map, List.filterMap_eq_nil_iff]
  exact fun _ _ => rfl

theorem capture?_sendFailure (text reason : String) :
    (sendFailure text reason).filterMap Note.capture? = [] := rfl

theorem capture?_failure (text reason : String) (isUserError : Bool) :
    (Relay.failure text (.ofUserError isUserError) reason).filterMap Note.capture? =
      (if isUserError then none else some (text, reason)).toList := by
  cases isUserError <;> rfl

theorem capture?_judge (text : String) (e : MetadataError) :
    (judge text (.error e : Except _ α)).notes.filterMap Note.capture? =
      (if e.isUnexpected then some (text, e.message) else none).toList := by
  cases e <;> rfl

/-! ### Records on which failures are captured -/

/-- On a record in which every step is over with an answer, what is captured is what is to be
captured of its failures. -/
def IsCaptured (pollText : String) (events : List (Event φ)) : Prop :=
  captured events = (events.filterMap Event.failure?).filterMap (Failure.capture? pollText)

namespace IsCaptured

variable {pollText : String} {query : Query φ} {answer : query.Answer}

theorem nil : IsCaptured pollText ([] : List (Event φ)) := rfl

theorem append {first rest : List (Event φ)} (before : IsCaptured pollText first)
    (after : IsCaptured pollText rest) : IsCaptured pollText (first ++ rest) := by
  rw [IsCaptured, captured_append, List.filterMap_append, List.filterMap_append, before, after]

theorem failed (failure : Failure) (h : (Event.answered query answer).failure? = some failure)
    {notes : List Note}
    (noted : notes.filterMap Note.capture? = (failure.capture? pollText).toList) :
    IsCaptured pollText (.answered query answer :: notes.map .noted) := by
  rw [IsCaptured, captured_cons_answered, captured_map_noted, noted, List.filterMap_cons_some h,
    failure?_map_noted]
  exact (Failure.filterMap_capture?_toList pollText (some failure)).symm

theorem fine (h : (Event.answered query answer).failure? = none) :
    IsCaptured pollText [.answered query answer] := by
  rw [IsCaptured, captured_cons_answered, List.filterMap_cons_none h]
  rfl

theorem flatMap {ι : Type} {items : List ι} {events : ι → List (Event φ)}
    (each : ∀ item ∈ items, IsCaptured pollText (events item)) :
    IsCaptured pollText (items.flatMap events) := by
  induction items with
  | nil => exact nil
  | cons item rest ih =>
      obtain ⟨hitem, hrest⟩ := List.forall_mem_cons.1 each
      exact hitem.append (ih hrest)

end IsCaptured

/-! ### The stream of configurations -/

namespace ConfigurationStream

def pollText : String := "Config: repository poll failed"

section Ticks

variable {settings : Settings} {token : AgentToken} {cursor : String} {agent : AgentInfo}
  {commit : String} {fetched : Except FetchError (Option (List UInt8))}

theorem isCaptured_obstacle {o : Obstacle}
    (h : configurationOf (filePath agent.name) fetched = .error o) :
    IsCaptured pollText (.answered (fileQuery settings agent commit) fetched ::
      (o.notes "Config: failed to fetch").map .noted) := by
  have hnotes := capture?_failure "Config: failed to fetch" o.message o.isUserError
  match fetched with
  | .error e =>
      cases h
      exact .failed (.file e) rfl hnotes
  | .ok none =>
      cases h
      exact .failed (.file (.notFound (filePath agent.name))) rfl hnotes
  | .ok (some data) =>
      rw [configurationOf] at h
      cases hparse : AgentConfiguration.parse data with
      | ok configuration =>
          rw [hparse] at h
          cases h
      | error e =>
          rw [hparse] at h
          cases h
          refine .failed (.configuration e) ?_ hnotes
          simp only [Event.failure?, Failure.ofFile?, hparse]

theorem isCaptured_configuration {configuration : AgentConfiguration}
    (h : configurationOf (filePath agent.name) fetched = .ok configuration) :
    IsCaptured pollText [.answered (fileQuery settings agent commit) fetched] := by
  refine .fine ?_
  match fetched with
  | .error e => cases h
  | .ok none => cases h
  | .ok (some data) =>
      rw [configurationOf] at h
      cases hparse : AgentConfiguration.parse data with
      | ok configuration => simp only [Event.failure?, Failure.ofFile?, hparse]
      | error e =>
          rw [hparse] at h
          cases h

theorem isCaptured_of_passes {events : List (Event Wire.ConfigurationResponse)}
    {ending : Tick.Ending Wire.ConfigurationResponse}
    (passes : Passes settings token cursor events ending) : IsCaptured pollText events := by
  cases passes with
  | lookupCut | pollCut | current | fileCut => rfl
  | @refused e status h =>
      have hnotes : [].filterMap Note.capture? =
          ((Failure.agent e).capture? pollText).toList := by
        cases e with
        | unexpected => cases h
        | unauthorized | forbidden | cancelled => rfl
      exact .failed (.agent e) rfl hnotes
  | @unknown e h =>
      refine .failed (.agent e) rfl ?_
      cases e with
      | unexpected => rfl
      | unauthorized | forbidden | cancelled => cases h
  | @pollFailed agent e =>
      have hagent : IsCaptured pollText
          [(.answered (.agent token) (.ok agent) : Event Wire.ConfigurationResponse)] := rfl
      exact hagent.append (.failed (.poll e) rfl (capture?_failure _ _ _))
  | obstacle h => exact .append rfl (isCaptured_obstacle h)
  | sendCut h => exact .append rfl (isCaptured_configuration h)
  | sendFailed h => exact .append rfl ((isCaptured_configuration h).append rfl)
  | sent h => exact .append rfl ((isCaptured_configuration h).append rfl)

end Ticks

/-- Whatever a stream of configurations is answered, what is captured is what is to be captured of
its failures. -/
theorem isCaptured_run {σ : Type} (settings : Settings) (token : AgentToken) (commit : String)
    (host : Host σ Wire.ConfigurationResponse) (fuel : Nat) (s : σ) :
    IsCaptured pollText ((plan settings token commit).run host.recorded fuel (s, [])).2.1.2 := by
  rcases hrun : (plan settings token commit).run host.recorded fuel (s, []) with
    ⟨result, ⟨t, events⟩, cursor⟩
  obtain ⟨ticks, rfl, course, -, -⟩ := Plan.run_course (p := fun _ => True) rfl
    (fun _ _ _ _ => trivial) (fun _ => trivial) hrun
  exact .flatMap fun tick htick => isCaptured_of_passes (passes_of_isOf (course.each tick htick))

end ConfigurationStream

end Session

end ManifestRelay
