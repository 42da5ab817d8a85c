import ManifestRelay.Rehearsal.Backend
import ManifestRelay.Rehearsal.Shelf
import ManifestRelay.Relay.Note
import ManifestRelay.Service.Serving

/-!
# A world for one stream

The world around a stream has a reader at the far end, a metadata service and a
repository to ask, and a timeline of things that happen to them.  Time passes
only while the stream waits.  Until then the stream has everything to itself:
the reader takes nothing, and nothing of the timeline happens.
-/

namespace ManifestRelay.Rehearsal

open Fetch Metadata Relay
open ManifestRelay.Stream

inductive Happening where
  | commit (id : String) (files : Files)
  | head (id : Option String)
  | failPoll (e : FetchError)
  | failVisit (e : FetchError)
  | failFile (e : FetchError)
  | agent (answer : Except MetadataError AgentInfo)
  | project (answer : Except MetadataError ProjectInfo)
  | cancel
  | leave

inductive Call where
  | question (question : Question)
  | poll (repository : Repository) (last name : String)
  | visit (repository : Repository) (revision directory : String) (recursive : Bool)
  | file (repository : Repository) (revision path : String) (limit : Int)

structure Reader (φ : Type) where
  /-- The instant from which it takes its next item. -/
  readyAt : Nat
  /-- Time that it takes over an item. -/
  pace : Nat
  /-- How many more items it wants, if not all. -/
  appetite : Option Nat
  leftAt : Option Nat
  /-- Items with their instants, latest first. -/
  items : List (Nat × Except Status φ)

structure Delays where
  poll : Nat
  visit : Nat
  file : Nat

/-- A stream's surroundings at an instant. -/
structure World (φ : Type) where
  now : Nat
  /-- What is still to happen, in order, each not before its instant. -/
  timeline : List (Nat × Happening)
  desk : Desk
  shelf : Shelf
  delays : Delays
  channel : Service.Delivery φ
  reader : Reader φ
  /-- Whether a service runs the stream. -/
  served : Bool
  /-- The instant at which a polling stream has to stop. -/
  deadline : Option Nat
  /-- Requests with their instants, latest first. -/
  calls : List (Nat × Call)
  notes : List (Nat × Note)
  /-- When the stream was cancelled, if it is. -/
  cancelledAt : Nat := 0

namespace World

variable {φ : Type}

/-! ### Happenings -/

/-- When the stream was cancelled that is cancelled now at the latest. -/
def cancellation (w : World φ) : Nat := if w.channel.cancelled then w.cancelledAt else w.now

def cancel (w : World φ) : World φ :=
  { w with channel := w.channel.cancel, cancelledAt := w.cancellation }

def leave (w : World φ) : World φ :=
  { w with
    channel := if w.served then w.channel.depart else w.channel.close
    reader.leftAt := some (w.reader.leftAt.getD w.now)
    cancelledAt := w.cancellation }

def happen (w : World φ) : Happening → World φ
  | .commit id files => { w with shelf := w.shelf.commit id files }
  | .head id => { w with shelf.head := id }
  | .failPoll e => { w with shelf.pollFailures := w.shelf.pollFailures ++ [e] }
  | .failVisit e => { w with shelf.visitFailures := w.shelf.visitFailures ++ [e] }
  | .failFile e => { w with shelf.fileFailures := w.shelf.fileFailures ++ [e] }
  | .agent answer => { w with desk.backend.agent := answer }
  | .project answer => { w with desk.backend.project := answer }
  | .cancel => w.cancel
  | .leave => w.leave

/-- Let everything happen that is due at the start. -/
def begin (w : World φ) : World φ :=
  let (due, later) := w.timeline.span fun (time, _) => time ≤ w.now
  due.foldl (fun w (_, happening) => w.happen happening) { w with timeline := later }

/-! ### The reader -/

/-- The reader takes items at the present instant, as many as it can. -/
def readUpTo : Nat → World φ → World φ
  | 0, w => w
  | n + 1, w =>
      if w.reader.leftAt.isSome || w.now < w.reader.readyAt then w
      else if w.reader.appetite = some 0 then w.leave
      else
        match w.channel.receive with
        | (none, _) => w
        | (some item, channel) =>
            let appetite := w.reader.appetite.map (· - 1)
            let pace := if appetite = some 0 then 0 else w.reader.pace
            readUpTo n { w with
              channel
              reader := { w.reader with
                readyAt := w.now + pace
                appetite
                items := (w.now, item) :: w.reader.items } }

def read (w : World φ) : World φ := readUpTo (w.channel.buffer.length + 1) w

/-- When the reader will next do something by itself. -/
def readerTime (w : World φ) : Option Nat :=
  if w.reader.leftAt.isSome || w.channel.buffer.isEmpty && w.reader.appetite != some 0 then none
  else some (max w.now w.reader.readyAt)

/-! ### Time -/

def isStopped (w : World φ) : Bool :=
  w.deadline.any fun deadline => w.channel.cancelled || deadline ≤ w.now

def within (time : Nat) (limit : Option Nat) : Bool := limit.all (time ≤ ·)

def earlier : Option Nat → Option Nat → Option Nat
  | some a, some b => some (min a b)
  | some a, none => some a
  | none, b => b

/-- The world at its next change, if there is one within a limit. -/
def nextChange (w : World φ) (limit : Option Nat) : Option (World φ) :=
  let readerMoves : Option (World φ) :=
    w.readerTime.bind fun time => if within time limit then some { w with now := time } else none
  match w.timeline with
  | (time, happening) :: rest =>
      if within time (earlier limit w.readerTime) then
        some ({ w with now := max w.now time, timeline := rest }.happen happening)
      else readerMoves
  | [] => readerMoves

/-- A bound on the changes that can come about while the stream waits. -/
def changes (w : World φ) : Nat := w.timeline.length + w.channel.buffer.length + 2

/-- Let time pass up to an instant, in a number of changes at most; false if the stream is
stopped before. -/
def waitUntil : Nat → Nat → World φ → Bool × World φ
  | 0, _, w => (false, w)
  | n + 1, target, w =>
      let w := w.read
      if w.isStopped then (false, w)
      else
        let limit := min target (w.deadline.getD target)
        match w.nextChange (some limit) with
        | some w => waitUntil n target w
        | none =>
            let w := { w with now := limit }
            (!w.isStopped, w)

/-- Let time pass; no time is no wait at all. -/
def wait (duration : Nat) (w : World φ) : Bool × World φ :=
  if duration = 0 then (true, w) else waitUntil w.changes (w.now + duration) w

/-- See a waiting send through, in a number of changes at most; nothing if the stream is stopped
before. -/
def waitForRoom : Nat → Nat → World φ → Option (Except SendError Unit) × World φ
  | 0, number, w => (none, { w with channel := w.channel.abandon number })
  | n + 1, number, w =>
      let w := w.read
      let giveUp (w : World φ) := (none, { w with channel := w.channel.abandon number })
      if w.isStopped then giveUp w
      else
        match w.channel.wake number with
        | (some .sent, channel) => (some (.ok ()), { w with channel })
        | (some (.refused reason), channel) => (some (.error reason), { w with channel })
        | _ =>
            match w.nextChange w.deadline with
            | some w => waitForRoom n number w
            | none => giveUp { w with now := w.deadline.getD w.now }

/-! ### Requests -/

def call (call : Call) (w : World φ) : World φ := { w with calls := (w.now, call) :: w.calls }

def request {α : Type} (c : Call) (delay : Nat) (answer : Shelf → α × Shelf) (w : World φ) :
    Option α × World φ :=
  match (w.call c).wait delay with
  | (false, w) => (none, w)
  | (true, w) =>
      let (a, shelf) := answer w.shelf
      (some a, { w with shelf })

def settle (w : World φ) : Progress → Option (Except SendError Unit) × World φ
  | .sent => (some (.ok ()), w)
  | .refused reason => (some (.error reason), w)
  | .waiting number => waitForRoom w.changes number w

def sendFrame (frame : φ) (w : World φ) : Option (Except SendError Unit) × World φ :=
  let (progress, channel) := w.channel.sendFrame frame
  { w with channel }.settle progress

def finish (result : Except Status Unit) (w : World φ) : World φ :=
  match w.channel.finish result with
  | (some progress, channel) => ({ w with channel }.settle progress).2
  | (none, _) => w

def caller : Caller (World φ) where
  now := (·.now)
  isCancelled w := w.channel.cancelled
  wait := wait
  note question := call (.question question)
  desk := (·.desk)
  putDesk desk w := { w with desk }

def record (note : Note) (w : World φ) : World φ := { w with notes := (w.now, note) :: w.notes }

/-- Let the reader read to the end of what was sent, in a number of changes at most. -/
def drain : Nat → World φ → World φ
  | 0, w => w
  | n + 1, w =>
      let w := w.read
      match w.nextChange none with
      | some w => drain n w
      | none => w

end World

end ManifestRelay.Rehearsal
