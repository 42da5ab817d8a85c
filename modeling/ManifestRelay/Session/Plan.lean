import ManifestRelay.Polling.Loop
import ManifestRelay.Session.Dialogue

/-!
# Streams that poll

A stream opens with one dialogue and then polls: every tick is a dialogue that
starts from the last commit the stream is done with and ends with the next one.
The connection's age counts from the first tick.  A stream that is stopped ends
well, wherever it stands.
-/

namespace ManifestRelay.Session

open Polling
open ManifestRelay.Stream

/-- What a stream does; its opening tells the ticks something of type `τ`. -/
structure Plan (φ τ : Type) where
  opening : Exchange φ τ
  tick : τ → String → Exchange φ String
  interval : Nat
  maxAge : Nat
  /-- The commit that the stream's reader has already. -/
  cursor : String

/-- Surroundings in which time passes. -/
structure Host (σ φ : Type) extends Surroundings σ φ where
  /-- Begin to count the connection's age. -/
  start : Nat → σ → σ
  isStopped : σ → Bool
  /-- Let an interval pass; false if the stream is stopped meanwhile. -/
  pause : Nat → σ → Bool × σ

namespace Plan

variable {σ φ τ : Type}

/-- The polling loop of a stream, over the surroundings and the cursor. -/
def poller (plan : Plan φ τ) (host : Host σ φ) (opened : τ) : Poller (σ × String) Status where
  isStopped := fun (s, _) => host.isStopped s
  check := fun (s, cursor) =>
    match (plan.tick opened cursor).run.run host.toSurroundings s with
    | (some (.ok next), s) => (.again, s, next)
    | (some (.error status), s) => (.failed status, s, cursor)
    | (none, s) => (.interrupted, s, cursor)
  pause := fun (s, cursor) =>
    let (passed, s) := host.pause plan.interval s
    (passed, s, cursor)

def result : Ending Status → Except Status Unit
  | .failed status => .error status
  | .done | .stopped => .ok ()

/-- Run a stream for at most `fuel` ticks; nothing if it has not ended by then. -/
def run (plan : Plan φ τ) (host : Host σ φ) (fuel : Nat) (s : σ) :
    Option (Except Status Unit) × σ × String :=
  match plan.opening.run.run host.toSurroundings s with
  | (none, s) => (some (.ok ()), s, plan.cursor)
  | (some (.error status), s) => (some (.error status), s, plan.cursor)
  | (some (.ok opened), s) =>
      let (ending, s, cursor) :=
        (plan.poller host opened).run fuel (host.start plan.maxAge s, plan.cursor)
      (ending.map result, s, cursor)

end Plan

end ManifestRelay.Session
