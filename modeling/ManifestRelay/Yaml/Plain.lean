import ManifestRelay.Binary.Width
import ManifestRelay.Decimal.Binary64

/-!
# What plain scalars stand for

A scalar without quotes stands for null, a truth value, a whole number, a
floating-point number or else for its own text. Whole numbers may be written
in base two, eight, ten and sixteen; a decimal number that starts with a zero
is text.
-/

namespace ManifestRelay.Yaml.Plain

def isNull (text : List Char) : Bool :=
  text = "null".toList || text = "Null".toList || text = "NULL".toList || text = ['~']

def bool? (text : List Char) : Option Bool :=
  if text = "true".toList || text = "True".toList || text = "TRUE".toList then some true
  else if text = "false".toList || text = "False".toList || text = "FALSE".toList then some false
  else none

def digit? (base : Nat) (c : Char) : Option Nat :=
  let value :=
    if '0' ≤ c && c ≤ '9' then c.toNat - 48
    else if 'a' ≤ c && c ≤ 'z' then c.toNat - 87
    else if 'A' ≤ c && c ≤ 'Z' then c.toNat - 55
    else base
  if value < base then some value else none

def natural? (base : Nat) (text : List Char) : Option Nat :=
  if text = [] then none
  else text.foldl (fun n c => do some ((← n) * base + (← digit? base c))) (some 0)

def signed? (base : Nat) : List Char → Option Int
  | '+' :: text => (natural? base text).map Int.ofNat
  | '-' :: text => (natural? base text).map fun n => -Int.ofNat n
  | text => (natural? base text).map Int.ofNat

/-- Whether a text is a decimal number that starts with a zero. -/
def hasLeadingZero (text : List Char) : Bool :=
  let text := match text with
    | '-' :: rest | '+' :: rest => rest
    | _ => text
  match text with
  | '0' :: rest => rest ≠ [] && rest.all Char.isDigit
  | _ => false

def baseMarks : List (Char × Nat) := [('x', 16), ('o', 8), ('b', 2)]

/-- The digits after the mark of a base, and the base. -/
def marked? : List Char → Option (Nat × List Char)
  | '0' :: mark :: rest => (baseMarks.lookup mark).map fun base => (base, rest)
  | _ => none

def withoutPlus : List Char → List Char
  | '+' :: rest => rest
  | text => text

def nonnegative? (text : List Char) : Option Int :=
  let bare := withoutPlus text
  match (marked? bare).bind fun (base, digits) => natural? base digits with
  | some n => some n
  | none =>
      if hasLeadingZero text then none else (natural? 10 bare).map Int.ofNat

def negative? (text : List Char) : Option Int :=
  match text with
  | '-' :: bare =>
      match (marked? bare).bind fun (base, digits) => natural? base digits with
      | some n => some (-n)
      | none => if hasLeadingZero text then none else (natural? 10 bare).map fun n => -Int.ofNat n
  | _ => none

def integer? (text : List Char) : Option Int := (nonnegative? text).or (negative? text)

/-- Whether a number has a place among the values: an unsigned or a signed
number of 64 bits. -/
def isSupported (n : Int) : Bool :=
  Binary.leastInteger 64 ≤ n && n ≤ Binary.greatestNatural 64

/-- Whether a number is small enough to be taken for a whole number at all. -/
def isWhole (n : Int) : Bool := Binary.leastInteger 128 ≤ n && n ≤ Binary.greatestNatural 128

/-- The number that a decimal text without sign writes, as digits and the
place of the last one. -/
def decimal? (text : List Char) : Option (Nat × Int) := do
  let whole := text.takeWhile Char.isDigit
  let rest := text.dropWhile Char.isDigit
  let (fraction, rest) := match rest with
    | '.' :: rest => (rest.takeWhile Char.isDigit, rest.dropWhile Char.isDigit)
    | _ => ([], rest)
  let digits := whole ++ fraction
  let mantissa ← natural? 10 digits
  let exponent ← match rest with
    | [] => some 0
    | e :: rest => if e = 'e' || e = 'E' then signed? 10 rest else none
  some (mantissa, exponent - fraction.length)

def float? (text : List Char) : Option Decimal.Binary64 :=
  let bare := withoutPlus text
  if text.head? = some '+' && (bare.head? = some '+' || bare.head? = some '-') then none
  else if bare = ".inf".toList || bare = ".Inf".toList || bare = ".INF".toList then
    some (.infinite false)
  else if text = "-.inf".toList || text = "-.Inf".toList || text = "-.INF".toList then
    some (.infinite true)
  else if text = ".nan".toList || text = ".NaN".toList || text = ".NAN".toList then
    some .notANumber
  else do
    let negative := bare.head? = some '-'
    let (digits, exponent) ← decimal? (if negative then bare.tail else bare)
    match Decimal.Binary64.ofDecimal negative digits exponent with
    | .infinite _ => none
    | number => some number

end ManifestRelay.Yaml.Plain
