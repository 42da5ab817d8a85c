/-!
# Polling loops

A poller checks something, pauses, and checks again, until a check is done or
fails or the loop is stopped.  A stop interrupts a running check and a pause,
and no check starts after it.
-/

namespace ManifestRelay.Polling

inductive Verdict (ε : Type) where
  | again
  | done
  | failed (reason : ε)
  /-- The stop came before the check had ended. -/
  | interrupted
deriving DecidableEq, Repr

inductive Ending (ε : Type) where
  | done
  | failed (reason : ε)
  | stopped
deriving DecidableEq, Repr

/-- What a loop repeats, over the states `σ` of its surroundings. -/
structure Poller (σ ε : Type) where
  isStopped : σ → Bool
  check : σ → Verdict ε × σ
  /-- Let the interval pass; false if the stop came first. -/
  pause : σ → Bool × σ

namespace Poller

variable {σ ε : Type}

/-- Run a loop for at most `fuel` checks; nothing if it has not ended by then. -/
def run (p : Poller σ ε) : Nat → σ → Option (Ending ε) × σ
  | 0, s => (none, s)
  | fuel + 1, s =>
      if p.isStopped s then (some .stopped, s)
      else
        match p.check s with
        | (.done, s) => (some .done, s)
        | (.failed reason, s) => (some (.failed reason), s)
        | (.interrupted, s) => (some .stopped, s)
        | (.again, s) =>
            match p.pause s with
            | (true, s) => run p fuel s
            | (false, s) => (some .stopped, s)

end Poller

end ManifestRelay.Polling
