import ManifestRelay.Glob.Pattern

/-!
# Matching a path

Tokens are matched from left to right. `*` and `**` try the shortest text
first; an attempt that ends at the end of the path is not repeated with less
of the path left.
-/

namespace ManifestRelay.Glob

/-- How an attempt to match the rest of a path ends. -/
inductive Verdict where
  | hit
  | miss
  /-- The path ended before the pattern did. -/
  | exhausted
deriving DecidableEq, Repr

/-- Go on with `next` after any run of characters other than `/`. -/
def afterRun (next : List Char → Verdict) : List Char → Verdict
  | [] => next []
  | c :: rest =>
      match next (c :: rest) with
      | .miss => if c = '/' then .miss else afterRun next rest
      | verdict => verdict

/-- Go on with `next` after what is left of a component and any number of
whole components; what is left may also be the rest of the path. -/
def afterComponents (next : List Char → Verdict) : List Char → Verdict
  | [] => next []
  | c :: rest =>
      if c = '/' then
        match next rest with
        | .miss => afterComponents next rest
        | verdict => verdict
      else afterComponents next rest

namespace Token

def run : List Token → List Char → Verdict
  | [], [] => .hit
  | [], _ :: _ => .miss
  | .anyRun :: tokens, path => afterRun (run tokens) path
  | .anyPath :: tokens, path =>
      match run tokens path with
      | .miss => afterComponents (run tokens) path
      | verdict => verdict
  | _ :: _, [] => .exhausted
  | token :: tokens, c :: path => if token.accepts c then run tokens path else .miss

def matchesPath (tokens : List Token) (path : List Char) : Bool :=
  run tokens path = .hit

end Token

end ManifestRelay.Glob
