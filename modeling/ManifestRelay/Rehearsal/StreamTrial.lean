import ManifestRelay.Stream.Channel

/-!
# Rehearsing a stream

One sender and one reader exercise a stream by turns.  Time passes only while a
party waits, and a party that has waited for its whole patience gives up.
-/

namespace ManifestRelay.Rehearsal.StreamTrial

open ManifestRelay.Stream

inductive Happening where
  | nothing
  | cancel
  | dropCanceller
  | signal (value : Bool)
  | close
  | receive
deriving DecidableEq, Repr

/-- One step of a script; `patience` bounds a wait in milliseconds. -/
inductive Step (α : Type) where
  | send (item : α) (patience : Nat)
  | sendError (status : Status) (patience : Nat)
  /-- Begin to send, let something happen, and see the send through. -/
  | sendThen (item : α) (happening : Happening) (patience : Nat)
  | receive
  | awaitCancelled (patience : Nat)
  | happen (happening : Happening)

inductive Outcome (α : Type) where
  | nothing
  | sent
  | blocked
  | refused (reason : SendError)
  | item (item : α)
  | failure (status : Status)
  | empty
  | cancelled
  | timeout

structure State (α : Type) where
  channel : Channel (Except Status α)
  /-- Whether a flag from outside cancels the stream, and not its own canceller. -/
  followsSignal : Bool
  hasCanceller : Bool
  now : Nat

variable {α : Type}

def State.initial (capacity : Nat) (followsSignal : Bool) : State α :=
  ⟨Channel.empty capacity, followsSignal, !followsSignal, 0⟩

namespace State

def happen (s : State α) : Happening → State α
  | .nothing => s
  | .cancel => if s.hasCanceller then { s with channel := s.channel.cancel } else s
  | .dropCanceller => { s with hasCanceller := false }
  | .signal value =>
      if s.followsSignal then { s with channel := { s.channel with cancelled := value } } else s
  | .close => { s with channel := s.channel.close }
  | .receive => { s with channel := s.channel.receive.2 }

def settle (s : State α) (patience : Nat) : Progress → Outcome α × State α
  | .sent => (.sent, s)
  | .refused reason => (.refused reason, s)
  | .waiting number =>
      match s.channel.wake number with
      | (some .sent, channel) => (.sent, { s with channel })
      | (some (.refused reason), channel) => (.refused reason, { s with channel })
      | (_, channel) =>
          (.blocked, { s with channel := channel.abandon number, now := s.now + patience })

/-- Milliseconds between the start of a send and what happens to it. -/
def lead : Nat := 5

def perform (s : State α) : Step α → Outcome α × State α
  | .send item patience =>
      let (progress, channel) := s.channel.send (.ok item) true
      settle { s with channel } patience progress
  | .sendError status patience =>
      let (progress, channel) := s.channel.send (.error status) false
      settle { s with channel } patience progress
  | .sendThen item happening patience =>
      let (progress, channel) := s.channel.send (.ok item) true
      settle ({ s with channel, now := s.now + lead }.happen happening) patience progress
  | .receive =>
      match s.channel.receive with
      | (some (.ok item), channel) => (.item item, { s with channel })
      | (some (.error status), channel) => (.failure status, { s with channel })
      | (none, _) => (.empty, s)
  | .awaitCancelled patience =>
      if s.channel.cancelled then (.cancelled, s)
      else (.timeout, { s with now := s.now + patience })
  | .happen happening => (.nothing, s.happen happening)

end State

end ManifestRelay.Rehearsal.StreamTrial
