import ManifestRelay.Snapshot.Location
import ManifestRelay.Text.Blank

/-!
# Names of commits

A name stands for the first of its candidates that has a commit: a branch
before a tag, and for the empty name `HEAD` before the branch `master`.  The
file of a ref holds a commit, or the word `ref:` and the name of another ref
whose file holds it; links of refs are followed once.
-/

namespace ManifestRelay.Snapshot

open Fetch

/-- Full names that a name may stand for, first choice first. -/
def refCandidates (name : String) : List String :=
  if name = "" then ["HEAD", "refs/heads/master"]
  else ["refs/heads/" ++ name, "refs/tags/" ++ name]

def missingRef (name : String) : FetchError :=
  if name = "" then .noDefaultBranch else .refNotFound name

def resolveRef (name : String) (commitOf : String → Option String) : Except FetchError String :=
  match (refCandidates name).findSome? commitOf with
  | some commit => .ok commit
  | none => .error (missingRef name)

/-- The candidates that were looked up until one had a commit. -/
def lookedUp (commitOf : String → Option String) : List String → List String
  | [] => []
  | name :: rest =>
      if (commitOf name).isSome then [name] else name :: lookedUp commitOf rest

def readText (disk : Disk) (path : Path) : Except DiskError (List Char) :=
  match disk path with
  | .error e => .error e
  | .ok (.directory _) => .error .isDirectory
  | .ok (.link _) => .error .tooManyLinks
  | .ok (.file content) =>
      match Text.Utf8.decode? content.data with
      | some text => .ok text
      | none => .error .notText

/-- What the file of a ref says; nothing if there is no file or it is blank. -/
def readRefFile (disk : Disk) (repository : Path) (name : String) :
    Except FetchError (Option (List Char)) := do
  match readText disk (← descend repository name) with
  | .ok text =>
      let value := Text.trimmed text
      return if value = [] then none else some value
  | .error e => if e.isAbsence then return none else throw e.toFetchError

def refMark : List Char := "ref: ".toList

def readRef (disk : Disk) (repository : Path) (name : String) :
    Except FetchError (Option String) := do
  match ← readRefFile disk repository name with
  | none => return none
  | some value =>
      if refMark.isPrefixOf value then
        let target := String.ofList (Text.trimmed (value.drop refMark.length))
        return (← readRefFile disk repository target).map String.ofList
      else return some (String.ofList value)

/-- The commits of refs; one that cannot be read makes the rest unreadable. -/
def readRefs (disk : Disk) (repository : Path) :
    List String → Except FetchError (List (String × String))
  | [] => pure []
  | name :: rest => do
      let commit ← readRef disk repository name
      let others ← readRefs disk repository rest
      return (commit.map (name, ·)).toList ++ others

end ManifestRelay.Snapshot
