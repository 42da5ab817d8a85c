import ManifestRelay.HostName.CombiningTable

/-!
# One form for letters with marks

A letter with marks is taken apart, its marks are put in order, and it is put
together again as far as there are characters for it.  Syllables of Hangul are
made of their parts by arithmetic.
-/

namespace ManifestRelay.HostName

/-! ### Hangul -/

/-- Where syllables and their parts start, and how many parts there are. -/
def firstSyllable : Nat := 0xAC00
def firstLead : Nat := 0x1100
def firstVowel : Nat := 0x1161
def firstTail : Nat := 0x11A7
def leadCount : Nat := 19
def vowelCount : Nat := 21
def tailCount : Nat := 28

def syllableParts? (c : Char) : Option (List Char) :=
  let n := c.toNat - firstSyllable
  if firstSyllable ≤ c.toNat && n < leadCount * vowelCount * tailCount then
    let lead := Char.ofNat (firstLead + n / (vowelCount * tailCount))
    let vowel := Char.ofNat (firstVowel + n / tailCount % vowelCount)
    if n % tailCount = 0 then some [lead, vowel]
    else some [lead, vowel, Char.ofNat (firstTail + n % tailCount)]
  else none

def syllable? (a b : Char) : Option Char :=
  let lead := a.toNat - firstLead
  let vowel := b.toNat - firstVowel
  let syllable := a.toNat - firstSyllable
  let tail := b.toNat - firstTail
  if firstLead ≤ a.toNat && lead < leadCount && firstVowel ≤ b.toNat && vowel < vowelCount then
    some (Char.ofNat (firstSyllable + (lead * vowelCount + vowel) * tailCount))
  else if firstSyllable ≤ a.toNat && syllable < leadCount * vowelCount * tailCount &&
      syllable % tailCount = 0 && firstTail < b.toNat && tail < tailCount then
    some (Char.ofNat (a.toNat + tail))
  else none

/-! ### Marks -/

/-- The class of a mark; what is none has class zero. -/
def markClass (c : Char) : Nat := (Ranges.find? markClasses c).getD 0

/-- The class of marks that silence the vowel of a letter. -/
def silencing : Nat := 9

def inPairs : List Char → List (Char × Char)
  | a :: b :: rest => (a, b) :: inPairs rest
  | _ => []

def composed : List (Char × Char × Char) :=
  compositions.flatMap fun (mark, run) =>
    (inPairs run.toList).map fun (letter, whole) => (Char.ofNat mark, letter, whole)

def compose? (letter mark : Char) : Option Char :=
  (syllable? letter mark).or <|
    (composed.find? fun (m, l, _) => m = mark && l = letter).map (·.2.2)

/-- Take a character apart; its letter may have to be taken apart in turn. -/
def partsOf : Nat → Char → List Char
  | 0, c => [c]
  | fuel + 1, c =>
      match syllableParts? c with
      | some parts => parts
      | none =>
          match composed.find? fun (_, _, whole) => whole = c with
          | some (mark, letter, _) => partsOf fuel letter ++ [mark]
          | none => [c]

def maxMarks : Nat := 8

/-- Put a character before others, and a mark behind those of lower classes. -/
def placeMark (c : Char) : List Char → List Char
  | [] => [c]
  | d :: rest =>
      if markClass d != 0 && markClass d < markClass c then d :: placeMark c rest
      else c :: d :: rest

def arrangeMarks (text : List Char) : List Char := text.foldr placeMark []

/-- Put characters together; `letter` is the last that is no mark, `marks` are those behind it,
latest first. -/
def assemble (letter : Option Char) (marks : List Char) : List Char → List Char
  | [] => letter.toList ++ marks.reverse
  | c :: rest =>
      let isNext := marks.all fun mark => markClass mark < markClass c
      match letter.bind fun letter => if isNext then compose? letter c else none with
      | some whole => assemble (some whole) marks rest
      | none =>
          if markClass c = 0 then letter.toList ++ marks.reverse ++ assemble (some c) [] rest
          else assemble letter (c :: marks) rest

/-- The one form of a text. -/
def normalForm (text : List Char) : List Char :=
  assemble none [] (arrangeMarks (text.flatMap (partsOf maxMarks)))

end ManifestRelay.HostName
