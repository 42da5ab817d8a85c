import ManifestRelay.Polling.Loop

/-!
# The timetable of a polling loop

Checks of known duration make the times of a loop computable.  What would end
at the instant of the stop or later does not end: the stop comes first.
-/

namespace ManifestRelay.Polling

structure Check (ε : Type) where
  duration : Nat
  verdict : Verdict ε
deriving DecidableEq, Repr

/-- The instant of the stop; none if it never comes. -/
abbrev Stop := Option Nat

def Stop.hasCome (stop : Stop) (now : Nat) : Bool := stop.any (· ≤ now)

def Stop.first (a b : Stop) : Stop := Option.merge min a b

structure Progress where
  now : Nat
  /-- Instants at which checks started, latest first. -/
  starts : List Nat
deriving DecidableEq, Repr

namespace Progress

/-- Let time pass; false if the stop comes first, which is then the time. -/
def wait (p : Progress) (stop : Stop) (duration : Nat) : Bool × Progress :=
  match stop with
  | some instant =>
      if instant ≤ p.now + duration then (false, { p with now := max p.now instant })
      else (true, { p with now := p.now + duration })
  | none => (true, { p with now := p.now + duration })

end Progress

/-- The loop over known checks, one after another. -/
def timedPoller {ε : Type} (interval : Nat) (stop : Stop) (checks : Nat → Check ε) :
    Poller Progress ε where
  isStopped p := stop.hasCome p.now
  check p :=
    let check := checks p.starts.length
    match Progress.wait { p with starts := p.now :: p.starts } stop check.duration with
    | (true, p) => (check.verdict, p)
    | (false, p) => (.interrupted, p)
  pause p := p.wait stop interval

def runTimed {ε : Type} (fuel start interval : Nat) (stop : Stop) (checks : Nat → Check ε) :
    Option (Ending ε) × Progress :=
  (timedPoller interval stop checks).run fuel ⟨start, []⟩

end ManifestRelay.Polling
