/-!
# Numbers of limited width

A width in bits has room for as many numbers as there are patterns of that many
bits.  Numbers with a sign share them out between both sides of zero.
-/

namespace ManifestRelay.Binary

/-- How many numbers a width has. -/
def patterns (bits : Nat) : Nat := Nat.pow 2 bits

def greatestNatural (bits : Nat) : Nat := patterns bits - 1

def leastInteger (bits : Nat) : Int := -patterns (bits - 1)

def greatestInteger (bits : Nat) : Int := patterns (bits - 1) - 1

/-- Whether a width holds a number with a sign. -/
def holdsInteger (bits : Nat) (n : Int) : Bool := leastInteger bits ≤ n && n ≤ greatestInteger bits

def holdsNatural (bits n : Nat) : Bool := n < patterns bits

end ManifestRelay.Binary
