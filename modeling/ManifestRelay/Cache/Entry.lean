/-!
# Answers that are kept for a while

An answer is kept for one time if it is a success and for another if it is a
failure.  An entry without an answer, or whose time is over, has to be filled
anew.
-/

namespace ManifestRelay.Cache

structure Lifetimes where
  success : Nat
  failure : Nat
deriving DecidableEq, Repr, Inhabited

namespace Lifetimes

def isEnabled (l : Lifetimes) : Bool := l.success != 0

/-- How often expired entries are swept. Failures that are not kept do not count. -/
def sweepPeriod (l : Lifetimes) : Nat :=
  if l.failure = 0 then l.success else min l.success l.failure

def of {ε ν : Type} (l : Lifetimes) : Except ε ν → Nat
  | .ok _ => l.success
  | .error _ => l.failure

end Lifetimes

structure Entry (ε ν : Type) where
  answer : Option (Except ε ν)
  /-- First instant at which the answer is too old. -/
  expires : Nat

namespace Entry

variable {ε ν : Type}

/-- A place made at an instant; it is too old from the start. -/
def vacant (now : Nat) : Entry ε ν := ⟨none, now⟩

def isExpired (e : Entry ε ν) (now : Nat) : Bool := e.expires ≤ now

def fresh? (e : Entry ε ν) (now : Nat) : Option (Except ε ν) :=
  if e.isExpired now then none else e.answer

/--
A place filled at an instant.  The instant at which the answer will be too old
is taken to be one that the clock can tell; where it is not, the call that has
loaded the answer breaks down instead, and nothing is kept.
-/
def filled (l : Lifetimes) (answer : Except ε ν) (now : Nat) : Entry ε ν :=
  ⟨some answer, now + l.of answer⟩

end Entry

end ManifestRelay.Cache
