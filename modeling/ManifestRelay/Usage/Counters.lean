import ManifestRelay.Binary.Width

/-!
# Usage counters

Counters grow until their counts are reported.  Counts are words of 64 bits
and wrap around.
-/

namespace ManifestRelay.Usage

/-- A number as a word of 64 bits. -/
def asWord (n : Int) : Int := n.bmod (Binary.patterns 64)

abbrev Amounts := List (String × Int)

def Amounts.of (a : Amounts) (name : String) : Int := (a.lookup name).getD 0

structure Counters where
  counts : Amounts
deriving DecidableEq, Repr, Inhabited

namespace Counters

def empty : Counters := ⟨[]⟩

def isRegistered (c : Counters) (name : String) : Bool := (c.counts.lookup name).isSome

/-- Add a counter; nothing if there is one of that name. -/
def register (c : Counters) (name : String) : Option Counters :=
  if c.isRegistered name then none else some ⟨c.counts ++ [(name, 0)]⟩

def duplicateMessage (name : String) : String := s!"counter with name {name} already exists"

def shift (c : Counters) (amount : String → Int) : Counters :=
  ⟨c.counts.map fun (name, n) => (name, asWord (n + amount name))⟩

def increment (c : Counters) (name : String) (n : Nat) : Counters :=
  c.shift fun other => if other = name then n else 0

def snapshot (c : Counters) : Amounts := c.counts.filter (·.2 != 0)

def subtract (c : Counters) (amounts : Amounts) : Counters := c.shift fun name => -amounts.of name

end Counters

end ManifestRelay.Usage
