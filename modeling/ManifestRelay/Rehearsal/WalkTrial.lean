import ManifestRelay.Snapshot.Fetcher

/-!
# Rehearsing a walk

A scripted visitor notes what a walk shows it.  It fails at one entry, passes
over others, and ends the walk with one of its chunks.
-/

namespace ManifestRelay.Rehearsal.WalkTrial

open Fetch

structure Manner where
  limit : Int
  skipped : List String
  /-- Number of the first chunk after which the walk may end; zero for none. -/
  stopAfter : Nat
  failAt : Option String

inductive Event where
  | entry (path : String)
  | chunk (path : String) (data : List UInt8)

def Event.isChunk : Event → Bool
  | .entry _ => false
  | .chunk .. => true

/-- The visitor of some manner; its calls are noted, latest first. -/
def visitor (manner : Manner) : Visitor (StateM (List Event)) where
  entry path := do
    modify (.entry path :: ·)
    if manner.failAt = some path then throw (.broken "scripted")
    return if path ∈ manner.skipped then .skip else .take manner.limit
  chunk path data := do
    modify (.chunk path data :: ·)
    let seen ← get
    return 0 < manner.stopAfter && manner.stopAfter ≤ seen.countP Event.isChunk

/-- Show a walk to a visitor: the calls that it saw and how the walk ended. -/
def watch (manner : Manner) (walk : Walk) : List Event × Except FetchError Unit :=
  let (result, events) := (walk.drive (visitor manner)).run []
  (events.reverse, result)

end ManifestRelay.Rehearsal.WalkTrial
