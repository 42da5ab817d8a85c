import ManifestRelay.Relay.Note
import ManifestRelay.Text.Blank

/-!
# Which lines of the log are shown

A filter is a list of directives between commas: a level, a target, or a target
with spans and fields, and a level.  Of the directives that a line meets, the
one with the longest target decides.  Directives for spans, or for values of
fields, say nothing of lines outside of spans.
-/

namespace ManifestRelay.CommandLine

open Relay

/-- The most detailed level that is shown, as a number; zero shows nothing. -/
abbrev Threshold := Nat

def levelRank : Level → Nat
  | .error => 1
  | .warning => 2
  | .info => 3
  | .debug => 4

def showsAll : Threshold := 5

def thresholdOfDigits (word : List Char) : Option Threshold :=
  let digits := if word.head? = some '+' then word.tail else word
  let n := digits.foldl (fun n c => 10 * n + (c.toNat - '0'.toNat)) 0
  if !digits.isEmpty && digits.all Char.isDigit && n ≤ showsAll then some n else none

/-- The threshold that a word names, or that it is the number of. -/
def threshold? (word : List Char) : Option Threshold :=
  thresholdOfDigits word |>.or <|
    ["off", "error", "warn", "info", "debug", "trace"].idxOf? (String.ofList word).toLower

/-- A rule on the lines of targets that begin with some text. -/
structure Directive where
  target : String
  fields : List String
  /-- Whether the rule is about spans or about values of fields. -/
  spans : Bool
  threshold : Threshold
deriving DecidableEq, Repr

/-! ### Reading a directive -/

structure Piece where
  start : Nat
  stop : Nat
deriving DecidableEq, Repr

def Piece.of (p : Piece) (text : List Char) : List Char := (text.drop p.start).take (p.stop - p.start)

inductive Stage where
  | nothing
  | word (start : Nat)
  | span (start : Nat)
  | field (start : Nat)
  | fields
  | target
  | level (start : Nat)
deriving DecidableEq, Repr

structure Draft where
  stage : Stage
  target : Option Piece
  span : Option Piece
  fields : List Piece
deriving DecidableEq, Repr

def beginsDirective (c : Char) : Bool :=
  c.isAlphanum || c = '-' || c = ':' || c = '_' || '\x7f' < c

def Draft.read (d : Draft) (place : Nat) (c : Char) : Option Draft :=
  match d.stage with
  | .nothing =>
      if c = '[' then some { d with stage := .span (place + 1) }
      else if beginsDirective c then some { d with stage := .word place }
      else none
  | .word start =>
      if c = '=' then some { d with stage := .level (place + 1), target := some ⟨start, place⟩ }
      else if c = '[' then some { d with stage := .span (place + 1), target := some ⟨start, place⟩ }
      else some d
  | .span start =>
      if c = ']' then some { d with stage := .target, span := some ⟨start, place⟩ }
      else if c = '\x7b' then
        let span := if start < place then some ⟨start, place⟩ else none
        some { d with stage := .field (place + 1), span := span }
      else some d
  | .field start =>
      if c = '\x7d' then
        if start < place then
          some { d with stage := .fields, fields := d.fields ++ [⟨start, place⟩] }
        else none
      else some d
  | .fields => if c = ']' then some { d with stage := .target } else none
  | .target => if c = '=' then some { d with stage := .level (place + 1) } else none
  | .level _ => some d

def Draft.finish (d : Draft) (text : List Char) : Option Directive :=
  let fields := d.fields.map (·.of text)
  let spans := d.span.isSome || fields.any (·.contains '=')
  let targeted (target : List Char) (threshold : Threshold) : Directive :=
    ⟨String.ofList target, fields.map String.ofList, spans, threshold⟩
  let target := (d.target.map (·.of text)).getD []
  match d.stage with
  | .word start =>
      let word := text.drop start
      match threshold? word with
      | some threshold => some (targeted [] threshold)
      | none => some (targeted word showsAll)
  | .level start =>
      match text.drop start with
      | [] => some (targeted target showsAll)
      | word => (threshold? word).map (targeted target)
  | .target => some (targeted target showsAll)
  | _ => none

/-- Read a directive.  Its pieces are found with blanks at its ends left out, and taken from the
text with these blanks. -/
def Directive.ofText (text : String) : Option Directive := do
  let text := text.toList
  let start : Draft := ⟨.nothing, none, none, []⟩
  let draft ← (Text.trimmed text).zipIdx.foldlM (fun draft (c, place) => draft.read place c) start
  draft.finish text

/-! ### Filters -/

/-- Whether a line of a target, whose only field is its message, meets a directive. -/
def Directive.isMetBy (d : Directive) (target : String) : Bool :=
  !d.spans && target.startsWith d.target && d.fields.all (· = "message")

/-- Whether a directive says at least as much as another of what lines it is about. -/
def Directive.isAsSpecificAs (d e : Directive) : Bool :=
  e.target.length < d.target.length ||
    (e.target.length = d.target.length && e.fields.length ≤ d.fields.length)

/-- The threshold for a target: that of the most specific directive that it meets, and of two
such directives that of the later. -/
def thresholdFor (directives : List Directive) (target : String) : Threshold :=
  let decisive := directives.foldl (fun best d =>
    if d.isMetBy target && best.all d.isAsSpecificAs then some d else best) none
  (decisive.map (·.threshold)).getD 0

def filterAt (level : Level) : List Directive := [⟨"", [], false, levelRank level⟩]

/-- Read a filter; one that cannot be read does not count, and an empty one shows errors. -/
def filterOf (text : Option String) : List Directive :=
  match text with
  | none => filterAt .info
  | some text =>
      let parts := (text.splitOn ",").filter (· != "")
      if parts = [] then filterAt .error
      else (parts.mapM Directive.ofText).getD (filterAt .info)

end ManifestRelay.CommandLine
