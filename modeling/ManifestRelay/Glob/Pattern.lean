/-!
# Plain patterns

A plain pattern has no braces and no backslashes. `*` and `?` stand for
characters other than `/`, `[...]` and `[!...]` for one such character, and
`**` for any number of whole directories when it fills a path component of its
own. `Token.ofText` reads a pattern; a refused pattern names the position and
the rule that it breaks.

`spell` brings the text of a glob into this form: an escaped `*`, `?`, `[` or
`]` becomes a class of one character, any other escaped character stands for
itself, and `[^` is written `[!`.
-/

namespace ManifestRelay.Glob

/-- The plain pattern that a glob without brace groups stands for. -/
def spell : List Char → List Char
  | [] => []
  | ['\\'] => ['\\']
  | '\\' :: c :: rest =>
      if c ∈ ['*', '?', '[', ']'] then '[' :: c :: ']' :: spell rest else c :: spell rest
  | '[' :: '^' :: rest => '[' :: '!' :: spell rest
  | c :: rest => c :: spell rest

inductive Span where
  | one (c : Char)
  | range (low high : Char)
deriving DecidableEq, Repr

namespace Span

def contains : Span → Char → Bool
  | .one c, d => c == d
  | .range low high, d => low ≤ d && d ≤ high

/-- The items of a class, read from left to right; a `-` between two
characters makes a range. -/
def ofText : List Char → List Span
  | low :: '-' :: high :: rest => .range low high :: ofText rest
  | c :: rest => .one c :: ofText rest
  | [] => []

end Span

inductive Token where
  | literal (c : Char)
  /-- `?` -/
  | anyChar
  /-- `*` -/
  | anyRun
  /-- `**` -/
  | anyPath
  | oneOf (spans : List Span)
  | noneOf (spans : List Span)
deriving DecidableEq, Repr

inductive PatternFault where
  | stars
  | component
  | range
deriving DecidableEq, Repr

structure PatternError where
  /-- Number of characters before the fault. -/
  position : Nat
  fault : PatternFault
deriving DecidableEq, Repr

namespace PatternFault

def message : PatternFault → String
  | .stars => "wildcards are either regular `*` or recursive `**`"
  | .component => "recursive wildcards must form a single path component"
  | .range => "invalid range pattern"

end PatternFault

namespace PatternError

def message (e : PatternError) : String :=
  s!"Pattern syntax error near position {e.position}: {e.fault.message}"

end PatternError

def cutAt (stop : Char) : List Char → Option (List Char × List Char)
  | [] => none
  | c :: rest =>
      if c = stop then some ([], rest)
      else (cutAt stop rest).map fun (before, after) => (c :: before, after)

theorem eq_of_cutAt {stop : Char} {text before after : List Char}
    (h : cutAt stop text = some (before, after)) :
    text = before ++ stop :: after ∧ stop ∉ before := by
  fun_induction cutAt stop text generalizing before after with
  | case1 => simp at h
  | case2 rest => simp_all
  | case3 c rest hc ih =>
      obtain ⟨⟨first, tail⟩, hcut, heq⟩ := Option.map_eq_some_iff.1 h
      obtain ⟨rfl, rfl⟩ : c :: first = before ∧ tail = after := by simpa using heq
      obtain ⟨rfl, hmem⟩ := ih hcut
      exact ⟨rfl, by simp [hmem, Ne.symm hc]⟩

theorem length_of_cutAt {stop : Char} {text before after : List Char}
    (h : cutAt stop text = some (before, after)) : after.length < text.length := by
  simp only [(eq_of_cutAt h).1, List.length_append, List.length_cons]
  omega

/-- The class opened by the bracket before `text`: its token, the text after
it and the number of characters it takes. The first item may be a `]`, and a
`!` before it excludes the items. -/
def readClass (text : List Char) : Option (Token × List Char × Nat) :=
  let excluded := text.head? = some '!'
  let body := if excluded then text.tail else text
  match body with
  | [] => none
  | first :: more =>
      (cutAt ']' more).map fun (items, after) =>
        let spans := Span.ofText (first :: items)
        let token := if excluded then Token.noneOf spans else .oneOf spans
        (token, after, (if excluded then 1 else 0) + items.length + 2)

theorem length_of_readClass {text after : List Char} {token : Token} {taken : Nat}
    (h : readClass text = some (token, after, taken)) : after.length < text.length := by
  simp only [readClass] at h
  split at h
  · simp at h
  · next first more hbody =>
      obtain ⟨⟨items, tail⟩, hcut, heq⟩ := Option.map_eq_some_iff.1 h
      have htail : tail = after := by simpa using congrArg (·.2.1) heq
      have hlength := congrArg List.length hbody
      have hshort := htail ▸ length_of_cutAt hcut
      simp only [List.length_cons] at hlength
      split at hlength
      · simp only [List.length_tail] at hlength
        omega
      · omega

namespace Token

/-- Put a token in front of others; neighbouring `**` are one. -/
def push (t : Token) : List Token → List Token
  | .anyPath :: rest => if t = .anyPath then .anyPath :: rest else t :: .anyPath :: rest
  | rest => t :: rest

/-- Read the rest of a pattern after `position` characters, the last of which
is `previous`. -/
def ofTextFrom (position : Nat) (previous : Option Char) (text : List Char) :
    Except PatternError (List Token) :=
  match text with
  | [] => .ok []
  | '?' :: rest => (ofTextFrom (position + 1) (some '?') rest).map (.anyChar :: ·)
  | '*' :: '*' :: '*' :: _ => .error ⟨position + 2, .stars⟩
  | '*' :: '*' :: rest =>
      if previous = none ∨ previous = some '/' then
        match rest with
        | [] => .ok [.anyPath]
        | '/' :: rest => (ofTextFrom (position + 3) (some '/') rest).map (push .anyPath)
        | _ => .error ⟨position + 2, .component⟩
      else .error ⟨position - 1, .component⟩
  | '*' :: rest => (ofTextFrom (position + 1) (some '*') rest).map (.anyRun :: ·)
  | '[' :: rest =>
      match _h : readClass rest with
      | none => .error ⟨position, .range⟩
      | some (token, after, taken) =>
          (ofTextFrom (position + 1 + taken) (some ']') after).map (token :: ·)
  | c :: rest => (ofTextFrom (position + 1) (some c) rest).map (.literal c :: ·)
termination_by text.length
decreasing_by
  all_goals simp only [List.length_cons]
  · omega
  · omega
  · omega
  · have hclass := length_of_readClass _h
    omega
  · omega

def ofText (text : List Char) : Except PatternError (List Token) :=
  ofTextFrom 0 none text

/-- Whether a token that stands for a single character stands for `c`. -/
def accepts : Token → Char → Bool
  | .literal d, c => c == d
  | .anyChar, c => c != '/'
  | .oneOf spans, c => c != '/' && spans.any (·.contains c)
  | .noneOf spans, c => c != '/' && !spans.any (·.contains c)
  | .anyRun, _ | .anyPath, _ => false

end Token

end ManifestRelay.Glob
