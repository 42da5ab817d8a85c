import ManifestRelay.Turn.Selection

/-!
# Rehearsing a selection

A selection is offered files and chunks by hand, and what it sends goes to a
stream that has room for everything.
-/

namespace ManifestRelay.Rehearsal.SelectionTrial

open Fetch Turn
open ManifestRelay.Stream

inductive Step where
  | glob (glob : String)
  | entry (path : String)
  | chunk (path : String) (data : List UInt8)
  /-- A chunk that is handed over in pieces of at most `limit` bytes. -/
  | rechunked (path : String) (data : List UInt8) (limit : Nat)
  | cancel
  | close

inductive Outcome where
  | nothing
  | decision (decision : Decision)
  | done (done : Bool)
  | failure (e : FetchError)

structure State where
  selection : Selection
  channel : Channel Frame

namespace State

def initial (budget : Budget) : State := ⟨.ofBudget budget, .empty 0⟩

/-- Put a frame in, room or not. -/
def deliver (frame : Frame) : StateM (Channel Frame) (Except SendError Unit) := fun c =>
  match c.refusal true with
  | some reason => (.error reason, c)
  | none => (.ok (), { c with buffer := c.buffer ++ [frame] })

def visitor : Visitor (StateT Selection (StateM (Channel Frame))) := Selection.visitor deliver

def call {α : Type} (s : State) (outcome : α → Outcome)
    (action : ExceptT FetchError (StateT Selection (StateM (Channel Frame))) α) :
    Outcome × State :=
  match (action.run.run s.selection).run s.channel with
  | ((.ok a, selection), channel) => (outcome a, ⟨selection, channel⟩)
  | ((.error e, selection), channel) => (.failure e, ⟨selection, channel⟩)

def perform (s : State) : Step → Outcome × State
  | .glob glob =>
      match Glob.Matcher.ofGlob glob with
      | .ok matcher => (.nothing, { s with selection := s.selection.withMatcher matcher })
      | .error e => (.failure (.globRefused glob e.message), s)
  | .entry path => s.call .decision (visitor.entry path)
  | .chunk path data => s.call .done (visitor.chunk path data)
  | .rechunked path data limit => s.call .done ((visitor.rechunked limit).chunk path data)
  | .cancel => (.nothing, { s with channel := s.channel.cancel })
  | .close => (.nothing, { s with channel := s.channel.close })

/-- Carry out a step and take out the frames that it sent. -/
def performAndRead (s : State) (step : Step) : (Outcome × List Frame) × State :=
  let (outcome, after) := perform s step
  ((outcome, after.channel.buffer), { after with channel.buffer := [] })

end State

end ManifestRelay.Rehearsal.SelectionTrial
