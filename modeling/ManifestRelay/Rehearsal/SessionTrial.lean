import ManifestRelay.Rehearsal.World
import ManifestRelay.Session.Plan

/-!
# Rehearsing streams

A stream is run in a world of its own, alone or as a service runs it.
-/

namespace ManifestRelay.Rehearsal

open Session Relay
open ManifestRelay.Stream

namespace World

variable {φ τ : Type}

def answer (query : Query φ) (w : World φ) : Option query.Answer × World φ :=
  match query with
  | .agent token => caller.ask (.agent token) w
  | .project token id => caller.ask (.project token id) w
  | .poll _ repository last name =>
      w.request (.poll repository last name) w.delays.poll (·.poll repository last name)
  | .file _ repository revision path limit =>
      w.request (.file repository revision path limit) w.delays.file
        (·.file repository revision path limit)
  | .visit _ repository revision directory recursive =>
      w.request (.visit repository revision directory recursive) w.delays.visit
        (·.visit repository revision directory recursive)
  | .send frame => w.sendFrame frame

def host : Host (World φ) φ where
  answer := answer
  record := record
  start maxAge w := { w with deadline := some (w.now + maxAge) }
  isStopped := isStopped
  pause := wait

/-- More ticks than a stream can see. -/
def ticks (plan : Plan φ τ) : Nat := plan.maxAge / max plan.interval 1 + 2

/-- Run a stream to its end; nothing if it does not end. -/
def run (plan : Plan φ τ) (w : World φ) : Option (Except Status Unit) × World φ :=
  let (result, w, _) := plan.run host (ticks plan) w
  (result, { w with deadline := none })

def runAlone (plan : Plan φ τ) (w : World φ) : Option (Except Status Unit) × World φ :=
  let (result, w) := w.begin.run plan
  (result, drain w.changes w)

/-- Run a stream as a service does: the status that it fails with is its last item. -/
def runServed (plan : Plan φ τ) (w : World φ) : World φ :=
  let (result, w) := { w with served := true }.begin.run plan
  let w :=
    match result with
    | some result => w.finish result
    | none => w
  drain w.changes w

/-- The world as it shows at an instant, or when its reader went away if that is later. -/
def shownAt (settled : Nat) (w : World φ) : World φ :=
  match w.reader.leftAt with
  | none => w
  | some left =>
      let shown {α : Type} (entries : List (Nat × α)) : List (Nat × α) :=
        entries.filter fun (time, _) => time ≤ max settled left
      { w with calls := shown w.calls, notes := shown w.notes }

def deliveries (w : World φ) : Nat := w.notes.countP fun (_, note) => note = .delivered

end World

end ManifestRelay.Rehearsal
