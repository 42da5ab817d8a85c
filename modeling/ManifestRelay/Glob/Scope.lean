/-!
# The part of a tree that a glob can select from

The text of a glob before the last `/` that precedes every metacharacter names
a directory literally. A walk for the glob starts there, and descends into
subdirectories only if the rest of the glob may match a `/`.
-/

namespace ManifestRelay.Glob

def metaChars : List Char := ['\\', '*', '?', '[', ']', '\x7b', '\x7d']

def treeRoot : String := "."

structure Scope where
  /-- Directory that holds every match. -/
  directory : String
  /-- Whether matches may lie deeper than directly in the directory. -/
  recursive : Bool
  residual : String
deriving DecidableEq, Repr

/-- A glob without one leading slash. -/
def withoutSlash : List Char → List Char
  | '/' :: rest => rest
  | glob => glob

def cutAtLastSlash : List Char → Option (List Char × List Char)
  | [] => none
  | c :: rest =>
      match cutAtLastSlash rest with
      | some (before, after) => some (c :: before, after)
      | none => if c = '/' then some ([], rest) else none

/-- The directory that a glob names literally and the glob after it. -/
def literalDirectory (glob : List Char) : Option (List Char × List Char) :=
  match cutAtLastSlash (glob.takeWhile (· ∉ metaChars)) with
  | some (first :: others, after) =>
      some (first :: others, after ++ glob.dropWhile (· ∉ metaChars))
  | _ => none

/-- Whether a residual glob may match a path with a slash. -/
def spansDirectories : List Char → Bool
  | [] => false
  | '*' :: '*' :: _ => true
  | c :: rest => c == '/' || c == '[' || spansDirectories rest

def scopeOf (glob : List Char) : Scope :=
  let cut :=
    (if glob.head? = some '/' then literalDirectory (withoutSlash glob) else none).or
      (literalDirectory glob)
  let (directory, residual) :=
    match cut with
    | some (directory, residual) => (String.ofList directory, residual)
    | none => (treeRoot, withoutSlash glob)
  ⟨directory, spansDirectories residual, String.ofList residual⟩

namespace Scope

def ofGlob (glob : String) : Scope := scopeOf glob.toList

end Scope

end ManifestRelay.Glob
