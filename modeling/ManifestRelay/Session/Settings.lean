import ManifestRelay.Turn.Selection

/-!
# Settings of the relay's streams
-/

namespace ManifestRelay.Session

/-- Periods in milliseconds and limits that all streams share. -/
structure Settings where
  configurationPollPeriod : Nat
  manifestPollPeriod : Nat
  maxConnectionAge : Nat
  maxConfigurationSize : Int
  maxGlobs : Nat
  budget : Turn.Budget
deriving DecidableEq, Repr, Inhabited

end ManifestRelay.Session
