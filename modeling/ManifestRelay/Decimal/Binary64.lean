import ManifestRelay.Binary.Width

/-!
# Binary floating point with 53 digits

A finite number is `mantissa * 2 ^ exponent` with a mantissa below `2 ^ 53` and
an exponent of at least `-1074`. `Binary64.ofDecimal` rounds a decimal number
to the nearest such number, a tie going to the even mantissa, and
`Binary64.shortest` finds the fewest decimal digits that read back as the same
number, the nearest of them if there are several.
-/

namespace ManifestRelay.Decimal

/-- A floating-point number; zero has the exponent zero. -/
inductive Binary64 where
  | finite (negative : Bool) (mantissa : Nat) (exponent : Int)
  | infinite (negative : Bool)
  | notANumber
deriving DecidableEq, Repr

def powerOver (b : Nat) (e : Int) : Nat × Nat := (Nat.pow b e.toNat, Nat.pow b (-e).toNat)

/-- The nearest whole number to `n / d`, a tie going to the even one. -/
def roundHalfEven (n d : Nat) : Nat :=
  let q := n / d
  let twice := 2 * (n % d)
  if d < twice || (twice = d && q % 2 = 1) then q + 1 else q

namespace Binary64

def minExponent : Int := -1074

def maxExponent : Int := 971

def ofFraction (negative : Bool) (n d : Nat) : Binary64 :=
  let guess : Int := (n.log2 : Int) - d.log2 - 52
  let fits (e : Int) : Bool :=
    let (up, down) := powerOver 2 e
    Binary.patterns 52 * (d * up) ≤ n * down
  let exponent := max minExponent (if fits guess then guess else guess - 1)
  let (up, down) := powerOver 2 exponent
  let mantissa := roundHalfEven (n * down) (d * up)
  let (mantissa, exponent) :=
    if mantissa = Binary.patterns 53 then (Binary.patterns 52, exponent + 1) else (mantissa, exponent)
  if maxExponent < exponent then .infinite negative
  else if mantissa = 0 then .finite negative 0 0
  else .finite negative mantissa exponent

/-- The number nearest to `digits * 10 ^ exponent`. -/
def ofDecimal (negative : Bool) (digits : Nat) (exponent : Int) : Binary64 :=
  let size : Int := (Nat.toDigits 10 digits).length + exponent
  if digits = 0 || size < -400 then .finite negative 0 0
  else if 400 < size then .infinite negative
  else
    let (up, down) := powerOver 10 exponent
    ofFraction negative (digits * up) down

/-- Whether two numbers compare as equal; here every non-number equals itself. -/
def same : Binary64 → Binary64 → Bool
  | .finite _ 0 _, .finite _ 0 _ => true
  | a, b => a = b

/-- The multiple of `10 ^ place` that reads back as `mantissa * 2 ^ exponent`
and is nearest to it, in units of `10 ^ place`. Distances are counted in
quarters of the step to the next number above; the step below is shorter at a
power of two. -/
def nearestMultiple (mantissa : Nat) (exponent place : Int) : Option Nat :=
  let (up2, down2) := powerOver 2 exponent
  let (up10, down10) := powerOver 10 place
  let quarter := up2 * down10
  let grid := 4 * down2 * up10
  let value := 4 * mantissa * quarter
  let shortStep := mantissa = Binary.patterns 52 && minExponent < exponent
  let low := value - (if shortStep then 1 else 2) * quarter
  let high := value + 2 * quarter
  let readsBack (k : Nat) : Bool :=
    if mantissa % 2 = 0 then low ≤ k * grid && k * grid ≤ high
    else low < k * grid && k * grid < high
  let below := value / grid
  match readsBack below, readsBack (below + 1) with
  | false, false => none
  | true, false => some below
  | false, true => some (below + 1)
  | true, true =>
      let down := value - below * grid
      let up := (below + 1) * grid - value
      if down < up || (down = up && below % 2 = 0) then some below else some (below + 1)

/-- The fewest digits for `mantissa * 2 ^ exponent`, tried from `place` down:
the digits as a number and the place of the last one. -/
def shortestFrom (mantissa : Nat) (exponent : Int) : (tries : Nat) → (place : Int) → Nat × Int
  | 0, place => (0, place)
  | tries + 1, place =>
      match nearestMultiple mantissa exponent place with
      | some digits => (digits, place)
      | none => shortestFrom mantissa exponent tries (place - 1)

def shortest (mantissa : Nat) (exponent : Int) : Nat × Int :=
  shortestFrom mantissa exponent 40 ((mantissa.log2 + exponent) * 30103 / 100000 + 2)

def positional (digits : Nat) (place : Int) : List Char :=
  let text := Nat.toDigits 10 digits
  let behind := (-place).toNat
  if behind = 0 then text ++ List.replicate place.toNat '0'
  else
    let text := List.replicate (behind + 1 - text.length) '0' ++ text
    text.take (text.length - behind) ++ '.' :: text.drop (text.length - behind)

/-- The text of a number in messages: positional, with a point. -/
def text : Binary64 → List Char
  | .finite negative mantissa exponent =>
      let (digits, place) := if mantissa = 0 then (0, 0) else shortest mantissa exponent
      let body := positional digits place
      (if negative then ['-'] else []) ++ (if '.' ∈ body then body else body ++ ['.', '0'])
  | .infinite negative => (if negative then ['-'] else []) ++ ['i', 'n', 'f']
  | .notANumber => ['N', 'a', 'N']

end Binary64

end ManifestRelay.Decimal
