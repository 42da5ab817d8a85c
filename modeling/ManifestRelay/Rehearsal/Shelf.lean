import ManifestRelay.Snapshot.Fetcher

/-!
# A scripted repository

A shelf holds commits, each a set of files, and the commit at its head.  It
answers as a repository does, but for failures that were queued for the next
request of a kind.  It can also lay its commits out as snapshots and leave the
answers to those.
-/

namespace ManifestRelay.Rehearsal

open Fetch Metadata Snapshot

abbrev Files := List (String × List UInt8)

structure Shelf where
  /-- Commits, latest first. -/
  commits : List (String × Files)
  head : Option String
  pollFailures : List FetchError
  visitFailures : List FetchError
  fileFailures : List FetchError
  /-- Size of the chunks of a walk; zero for whole files. -/
  chunkSize : Nat
  /-- Whether walks hand over files of any size. -/
  ignoresLimits : Bool
  /-- The disk of snapshots that answers in the shelf's place. -/
  snapshots : Option Node

namespace Shelf

def nextFailure : List FetchError → Option (FetchError × List FetchError)
  | [] => none
  | e :: rest => some (e, rest)

/-- Directories of the repositories that snapshots are laid out in. -/
def repositoryNames : List Path :=
  [["default", "group", "agent.git"], ["default", "group", "manifests.git"]]

/-- Lay a commit out in one repository and point its default branch to it. -/
def layOut (id : String) (files : Files) (root : Node) (repository : Path) : Node :=
  let text (s : String) : Node := .file (.ofBytes (Text.Utf8.encode s.toList))
  let tree := repository ++ ["trees", id]
  let root := files.foldl
    (fun root (path, data) => root.insert (tree ++ namesOf path) (.file (.ofBytes data)))
    (root.makeDirectory tree)
  (root.insert (repository ++ ["HEAD"]) (text "ref: refs/heads/main")).insert
    (repository ++ ["refs", "heads", "main"]) (text id)

def commit (s : Shelf) (id : String) (files : Files) : Shelf :=
  { s with
    commits := (id, files) :: s.commits
    head := some id
    snapshots := s.snapshots.map fun root => repositoryNames.foldl (layOut id files) root }

def compare (s : Shelf) (last : String) : Except FetchError PollInfo :=
  match s.head with
  | some commit => .ok (.ofCommit commit last)
  | none => .error .noDefaultBranch

def poll (s : Shelf) (repository : Repository) (last name : String) :
    Except FetchError PollInfo × Shelf :=
  match nextFailure s.pollFailures with
  | some (e, rest) => (.error e, { s with pollFailures := rest })
  | none =>
      match s.snapshots with
      | some root => (Snapshot.poll root.find? repository last name, s)
      | none => (s.compare last, s)

def below (directory path : String) : Option String :=
  if directory = topName then some path
  else if path.startsWith (directory ++ "/") then
    some (String.ofList (path.toList.drop (directory.length + 1)))
  else none

def filesBelow (files : Files) (directory : String) (recursive : Bool) : Files :=
  (files.filter fun (path, _) =>
    (below directory path).any fun rest => recursive || !rest.contains '/').mergeSort
      fun a b => decide (a.1 ≤ b.1)

def chunksOf (s : Shelf) (data : List UInt8) : List (List UInt8) :=
  if s.chunkSize = 0 then [data] else piecesOf (s.chunkSize - 1) data

def chunkWalk (path : String) (rest : Walk) : List (List UInt8) → Walk
  | [] => rest
  | chunk :: more => .chunk path chunk fun
      | .error e => .finished (.error e)
      | .ok true => .finished (.ok ())
      | .ok false => chunkWalk path rest more

def fileWalk (s : Shelf) : Files → Walk
  | [] => .finished (.ok ())
  | (path, data) :: rest => .entry path fun
      | .error e => .finished (.error e)
      | .ok .skip => fileWalk s rest
      | .ok (.take limit) =>
          match if s.ignoresLimits then .ok () else checkSize path data.length limit with
          | .error e => .finished (.error e)
          | .ok () => chunkWalk path (fileWalk s rest) (s.chunksOf data)

def visit (s : Shelf) (repository : Repository) (revision directory : String)
    (recursive : Bool) : Walk × Shelf :=
  match nextFailure s.visitFailures with
  | some (e, rest) => (.finished (.error e), { s with visitFailures := rest })
  | none =>
      match s.snapshots with
      | some root => (Snapshot.visit root.find? repository revision directory recursive, s)
      | none =>
          match s.commits.lookup revision with
          | some files => (s.fileWalk (filesBelow files directory recursive), s)
          | none => (.finished (.error (.refNotFound revision)), s)

def read (s : Shelf) (revision path : String) (limit : Int) :
    Except FetchError (Option (List UInt8)) :=
  match s.commits.lookup revision with
  | none => .error (.refNotFound revision)
  | some files =>
      match files.lookup path with
      | none => .ok none
      | some data => (checkSize path data.length limit).map fun () => some data

def file (s : Shelf) (repository : Repository) (revision path : String) (limit : Int) :
    Except FetchError (Option (List UInt8)) × Shelf :=
  match nextFailure s.fileFailures with
  | some (e, rest) => (.error e, { s with fileFailures := rest })
  | none =>
      match s.snapshots with
      | some root => (Snapshot.fetchFile root.find? repository revision path limit, s)
      | none => (s.read revision path limit, s)

end Shelf

end ManifestRelay.Rehearsal
