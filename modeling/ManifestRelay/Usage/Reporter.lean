import ManifestRelay.Metadata.Error
import ManifestRelay.Usage.Counters

/-!
# Reporting usage

A report takes a snapshot of the counters and sends it, unless there is nothing
to report.  If it is accepted, exactly what was sent is taken off the counters;
if not, everything stays for the next report.  Counting goes on meanwhile.
-/

namespace ManifestRelay.Usage

/-- Counters and the report under way. -/
structure Reporter where
  counters : Counters
  inFlight : Option Amounts
deriving DecidableEq, Repr, Inhabited

namespace Reporter

/-- Begin a report; what is to be sent, if there is anything to report. -/
def begin (r : Reporter) : Option Amounts × Reporter :=
  let amounts := r.counters.snapshot
  if amounts = [] then (none, r) else (some amounts, { r with inFlight := some amounts })

def finish (r : Reporter) (accepted : Bool) : Reporter :=
  match r.inFlight with
  | some amounts =>
      ⟨if accepted then r.counters.subtract amounts else r.counters, none⟩
  | none => r

def increment (r : Reporter) (name : String) (n : Nat) : Reporter :=
  { r with counters := r.counters.increment name n }

end Reporter

end ManifestRelay.Usage
