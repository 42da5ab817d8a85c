import ManifestRelay.Glob.Braces
import ManifestRelay.Glob.Matching

/-!
# Compiled globs

A glob is compiled into one pattern for each of its alternatives and matches
what one of them matches. The first alternative that is no pattern, in written
order, decides why a glob is refused.
-/

namespace ManifestRelay.Glob

inductive GlobError where
  | braces (reason : BraceError)
  | pattern (reason : PatternError)
deriving DecidableEq, Repr

namespace GlobError

def message : GlobError → String
  | .braces reason => reason.message
  | .pattern reason => reason.message

end GlobError

structure Matcher where
  patterns : List (List Token)
deriving DecidableEq, Repr

namespace Matcher

def ofChars (glob : List Char) : Except GlobError Matcher := do
  let plain ← (expand glob).mapError .braces
  let patterns ← plain.mapM fun text => (Token.ofText (spell text)).mapError .pattern
  return ⟨patterns⟩

def ofGlob (glob : String) : Except GlobError Matcher := ofChars glob.toList

/-- Whether some alternative matches the path. -/
def matchesChars (m : Matcher) (path : List Char) : Bool :=
  m.patterns.any (Token.matchesPath · path)

def matchesPath (m : Matcher) (path : String) : Bool := m.matchesChars path.toList

end Matcher

end ManifestRelay.Glob
