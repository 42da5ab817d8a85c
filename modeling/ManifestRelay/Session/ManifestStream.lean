import ManifestRelay.Glob.Scope
import ManifestRelay.Session.Plan
import ManifestRelay.Session.Settings
import ManifestRelay.Turn.Selection

/-!
# The stream of manifests

When it opens, the stream looks up its agent and counts the distinct globs that
it was asked for.  At every tick it looks up the project, polls the project's
repository and, if that has a new commit, sends a turn: headers, the files that
the globs select, trailers.  A turn that cannot be completed ends the stream.
-/

namespace ManifestRelay.Session

open Fetch Metadata Relay Turn
open ManifestRelay.Stream

namespace ManifestStream

/-- Most bytes of one object frame. -/
def maxChunkSize : Nat := 131072

def visitFailedText : String := "GitOps: failed to get objects to synchronize"

def sendFailedText : String := "GitOps: failed to send objects to synchronize"

def walkNotes (e : FetchError) : List Note :=
  match e with
  | .sendFailed _ => sendFailure sendFailedText e.message
  | _ => fetchFailure visitFailedText e

def walkStatus (e : FetchError) : Status :=
  match e with
  | .sendFailed _ => Exchange.sendFailed
  | .broken _ => ⟨.internal, visitFailedText⟩
  | _ =>
      if e.isUserError then ⟨.failedPrecondition, s!"{visitFailedText}: {e.message}"⟩
      else ⟨.unavailable, visitFailedText⟩

def openingNotes : Walk → List Note
  | .missing directory revision =>
      [logged .debug s!"Prefix {directory} not found at {revision}"]
  | _ => []

def failWalk {α : Type} (e : FetchError) : Exchange Frame α :=
  Exchange.fail (walkNotes e) (walkStatus e)

/-- The visitor that sends what a selection takes, in frames of limited size. -/
def visitor : Visitor (StateT Selection (Dialogue Frame)) :=
  (Selection.visitor fun frame => Dialogue.request (.send frame)).rechunked maxChunkSize

def watch (walk : Walk) (selection : Selection) : Exchange Frame Selection := do
  let (result, selection) ← ExceptT.lift ((walk.drive visitor).run selection)
  match result with
  | .ok () => pure selection
  | .error e => failWalk e

/-- Send the files that one glob selects from a commit. -/
def sendGlob (project : ProjectInfo) (commit glob : String) (selection : Selection) :
    Exchange Frame Selection := do
  let scope := Glob.Scope.ofGlob glob
  let plain := String.ofList (Glob.withoutSlash glob.toList)
  match Glob.Matcher.ofGlob plain with
  | .error e => failWalk (.globRefused plain e.message)
  | .ok matcher =>
      let walk : Walk ← Exchange.request
        (.visit project.server project.repository commit scope.directory scope.recursive)
      Exchange.notes (openingNotes walk)
      watch walk (selection.withMatcher matcher)

def sendGlobs (project : ProjectInfo) (commit : String) :
    List String → Selection → Exchange Frame Selection
  | [], selection => pure selection
  | glob :: rest, selection => do
      sendGlobs project commit rest (← sendGlob project commit glob selection)

def sendTurn (budget : Budget) (project : ProjectInfo) (globs : List String) (commit : String) :
    Exchange Frame Unit := do
  Exchange.send sendFailedText (.headers commit)
  let _ ← sendGlobs project commit globs (.ofBudget budget)
  Exchange.send sendFailedText .trailers
  Exchange.log .info "GitOps: fetched files"

def tick (settings : Settings) (token : AgentToken) (projectId : String) (globs : List String)
    (cursor : String) : Exchange Frame String := do
  let some project ← Exchange.project token projectId | return cursor
  let polled : Except FetchError PollInfo ←
    Exchange.request (.poll project.server project.repository cursor "")
  match polled with
  | .error e =>
      Exchange.notes (fetchFailure "GitOps: repository poll failed" e)
      return cursor
  | .ok ⟨false, _⟩ =>
      Exchange.log .debug "GitOps: no updates"
      return cursor
  | .ok ⟨true, commit⟩ =>
      Exchange.log .info "GitOps: new commit"
      sendTurn settings.budget project globs commit
      Exchange.notes [.delivered]
      return commit

def tooManyGlobs (limit count : Nat) : Status :=
  ⟨.invalidArgument, s!"maximum number of GitOps paths per manifest project is {limit}, but {count} was requested"⟩

/-- Open the stream: the distinct globs of the request, in the order of their first mention. -/
def opening (settings : Settings) (token : AgentToken) (globs : List String) :
    Exchange Frame (List String) := do
  let _ ← Exchange.agent token false
  let distinct := globs.foldl (fun kept glob => if glob ∈ kept then kept else kept ++ [glob]) []
  if settings.maxGlobs < distinct.length then
    throw (tooManyGlobs settings.maxGlobs distinct.length)
  return distinct

/-- The stream of one project from the commit that the agent has. -/
def plan (settings : Settings) (token : AgentToken) (projectId : String) (globs : List String)
    (commit : String) : Plan Frame (List String) where
  opening := opening settings token globs
  tick := tick settings token projectId
  interval := settings.manifestPollPeriod
  maxAge := settings.maxConnectionAge
  cursor := commit

end ManifestStream

end ManifestRelay.Session
