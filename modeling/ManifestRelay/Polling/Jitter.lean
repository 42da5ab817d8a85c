import ManifestRelay.Binary.Width

/-!
# Shifting a duration at random

A duration is shifted by less than some percent of itself, so that many loops
that began together end apart.  The arithmetic has 128 bits, and the result is
cut to 64 bits of nanoseconds.
-/

namespace ManifestRelay.Polling

/-- Most percent that the age of a connection may deviate. -/
def ageJitterPercent : Nat := 5

/-- A number if 128 bits hold it. -/
def inWideRange (n : Nat) : Option Nat := if Binary.holdsNatural 128 n then some n else none

def difference (a b : Nat) : Option Nat := if b ≤ a then some (a - b) else none

def remainder (a b : Nat) : Option Nat := if b = 0 then none else some (a % b)

def jitterRange (nanos percent : Nat) : Option Nat :=
  (inWideRange (nanos * percent)).map (· / 100)

/-- Nanoseconds shifted by a random number; nothing if the arithmetic overflows or divides by
zero. -/
def jittered (nanos percent draw : Nat) : Option Nat := do
  let range ← jitterRange nanos percent
  if range = 0 then return nanos
  let span ← inWideRange (2 * range)
  let shifted ← inWideRange (nanos + (← remainder draw span))
  return min (← difference shifted range) (Binary.greatestNatural 64)

/-- Whether every random number shifts the nanoseconds into the bounds. -/
def alwaysWithin (low high nanos percent : Nat) : Bool :=
  let last := 2 * (jitterRange nanos percent).getD 0 - 1
  [0, last].all fun draw => (jittered nanos percent draw).any fun n => low ≤ n && n ≤ high

end ManifestRelay.Polling
