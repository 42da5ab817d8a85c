import ManifestRelay.HostName.Mapping

/-!
# Labels in ASCII

A label beyond ASCII is written in ASCII as its characters of ASCII, a hyphen,
and numbers that say which other characters go where.  A number is written in
base 36 with the lowest digit first; how many digits it takes is learnt from
the numbers before it.
-/

namespace ManifestRelay.HostName

/-! ### Digits -/

def base : Nat := 36

def digitChar (d : Nat) : Char :=
  if d < 26 then Char.ofNat ('a'.toNat + d) else Char.ofNat ('0'.toNat + d - 26)

def digitValue? (c : Char) : Option Nat :=
  if 'a' ≤ c && c ≤ 'z' then some (c.toNat - 'a'.toNat)
  else if c.isDigit then some (c.toNat - '0'.toNat + 26)
  else none

/-- A digit below its threshold is the last of a number. -/
def digitThreshold (place bias : Nat) : Nat := min 26 (max 1 (place - bias))

theorem digitThreshold_pos (place bias : Nat) : 1 ≤ digitThreshold place bias := by
  unfold digitThreshold; omega

/-- Make a number small, and count the digits that this takes. -/
def shrink (delta count : Nat) : Nat × Nat :=
  if 455 < delta then shrink (delta / 35) (count + base) else (delta, count)
termination_by delta
decreasing_by omega

/-- The bias after a number, with `count` characters written. -/
def adaptBias (delta count : Nat) (isFirst : Bool) : Nat :=
  let delta := if isFirst then delta / 700 else delta / 2
  let (delta, digits) := shrink (delta + delta / count) 0
  digits + base * delta / (delta + 38)

def initialBias : Nat := 72

def firstBeyond : Nat := 0x80

/-! ### Writing -/

def writeNumber (bias place n : Nat) : List Char :=
  let threshold := digitThreshold place bias
  if n < threshold then [digitChar n]
  else
    digitChar (threshold + (n - threshold) % (base - threshold)) ::
      writeNumber bias (place + base) ((n - threshold) / (base - threshold))
termination_by n
decreasing_by
  have positive := digitThreshold_pos place bias
  have := Nat.div_le_self (n - digitThreshold place bias) (base - digitThreshold place bias)
  omega

structure Writer where
  written : List Char
  delta : Nat
  bias : Nat
  /-- How many characters are accounted for. -/
  count : Nat
deriving DecidableEq, Repr

/-- Pass a character while the characters with number `n` are put in. -/
def Writer.pass (isFirst : Nat → Bool) (n : Nat) (w : Writer) (c : Char) : Writer :=
  if c.toNat < n then { w with delta := w.delta + 1 }
  else if c.toNat = n then
    ⟨w.written ++ writeNumber w.bias base w.delta, 0,
      adaptBias w.delta (w.count + 1) (isFirst w.count), w.count + 1⟩
  else w

/-- Put in the characters with the numbers in turn; those below `n` are in. -/
def Writer.insertAll (label : List Char) (isFirst : Nat → Bool) :
    List Nat → Nat → Writer → Writer
  | [], _, w => w
  | m :: rest, n, w =>
      let w := { w with delta := w.delta + (m - n) * (w.count + 1) }
      let w := label.foldl (Writer.pass isFirst m) w
      Writer.insertAll label isFirst rest (m + 1) { w with delta := w.delta + 1 }

/-- The numbers of the characters beyond ASCII, in order and each once. -/
def beyondAscii (label : List Char) : List Nat :=
  (((label.filter (!isAscii ·)).map Char.toNat).mergeSort (· ≤ ·)).eraseDups

def encodeLabel (label : List Char) : List Char :=
  let plain := label.filter isAscii
  let start : Writer := ⟨[], 0, initialBias, plain.length⟩
  let written := (Writer.insertAll label (· == plain.length) (beyondAscii label) firstBeyond
    start).written
  (if plain.isEmpty then [] else plain ++ ['-']) ++ written

/-! ### Reading -/

/-- Read a number from the digit at a place on, and give what is left. -/
def readNumber? (bias : Nat) : Nat → Nat → Nat → List Char → Option (Nat × List Char)
  | _, _, _, [] => none
  | place, weight, n, c :: rest => do
      let digit ← digitValue? c
      let threshold := digitThreshold place bias
      if digit < threshold then some (n + digit * weight, rest)
      else readNumber? bias (place + base) (weight * (base - threshold)) (n + digit * weight) rest

/-- Put in characters; `n` is the number of the last, and `place` where the next may go. -/
def insertRead? : Nat → Nat → Nat → Nat → List Char → List Char → Option (List Char)
  | _, _, _, _, label, [] => some label
  | 0, _, _, _, _, _ => none
  | fuel + 1, bias, n, place, label, text => do
      let (sum, rest) ← readNumber? bias base 1 place text
      let count := label.length + 1
      let n := n + sum / count
      let spot := sum % count
      if !n.isValidChar then none
      else
        insertRead? fuel (adaptBias (sum - place) count (place = 0)) n (spot + 1)
          (label.insertIdx spot (Char.ofNat n)) rest

def decodeLabel? (text : List Char) : Option (List Char) :=
  let numbers := (text.reverse.takeWhile (· != '-')).reverse
  let plain := (text.take (text.length - numbers.length)).dropLast
  if text.all isAscii then insertRead? text.length initialBias firstBeyond 0 plain numbers else none

end ManifestRelay.HostName
