import ManifestRelay.Fetch.Visitor
import ManifestRelay.Snapshot.Ref

/-!
# Reading repositories from snapshots

Polling resolves a ref, walking offers the files below a directory in the order
of their paths, and fetching reads one file.  A file larger than its reader
allows is refused, by its measured size before the first byte, and again when
it has grown past the limit since.
-/

namespace ManifestRelay.Fetch

structure PollInfo where
  updateAvailable : Bool
  commit : String
deriving DecidableEq, Repr, Inhabited

def PollInfo.ofCommit (commit last : String) : PollInfo := ⟨commit != last, commit⟩

end ManifestRelay.Fetch

namespace ManifestRelay.Snapshot

open Fetch Metadata

/-- Bytes read from a file at a time. -/
def readSize : Nat := 65536

def checkSize (path : String) (size : Nat) (limit : Int) : Except FetchError Unit :=
  if (size : Int) ≤ limit then .ok () else .error (.fileTooBig path size limit)

/-- Resolve a ref and compare its commit with the last one seen. -/
def poll (disk : Disk) (repository : Repository) (last name : String) :
    Except FetchError PollInfo := do
  let refs ← readRefs disk (← repositoryPath repository) (refCandidates name)
  let commit ← resolveRef name fun full => refs.lookup full
  return PollInfo.ofCommit commit last

def pathText (path : Path) : String := String.intercalate "/" path

/-- The files at a directory with their paths from the top of the tree, in order. -/
def listFiles (entries : List (String × Node)) (above : Path) (recursive : Bool) :
    List (String × Content) :=
  let found := if recursive then Node.filesOf entries else Node.ownFiles entries
  (found.map fun (path, content) => (pathText (above ++ path), content)).mergeSort
    fun a b => decide (a.1 ≤ b.1)

/-- Hand over pieces of a file while they stay within `limit`; `total` bytes came before. -/
def pieceWalk (path : String) (limit : Int) (rest : Walk) : Nat → List (List UInt8) → Walk
  | _, [] => rest
  | total, piece :: more =>
      match checkSize path (total + piece.length) limit with
      | .error e => .finished (.error e)
      | .ok () => .chunk path piece fun
          | .error e => .finished (.error e)
          | .ok true => .finished (.ok ())
          | .ok false => pieceWalk path limit rest (total + piece.length) more

/-- Offer files one after another and hand over those that are taken. -/
def fileWalk : List (String × Content) → Walk
  | [] => .finished (.ok ())
  | (path, content) :: rest => .entry path fun
      | .error e => .finished (.error e)
      | .ok .skip => fileWalk rest
      | .ok (.take limit) =>
          match checkSize path content.measured limit with
          | .error e => .finished (.error e)
          | .ok () => pieceWalk path limit (fileWalk rest) 0 (piecesOf (readSize - 1) content.data)

def present (disk : Disk) (path : Path) : Except FetchError (Option Node) :=
  match disk path with
  | .ok node => .ok (some node)
  | .error .missing => .ok none
  | .error e => .error e.toFetchError

def topName : String := "."

def visit (disk : Disk) (repository : Repository) (revision directory : String)
    (recursive : Bool) : Walk :=
  match start with
  | .error e => .finished (.error e)
  | .ok none => .missing directory revision
  | .ok (some files) => fileWalk files
where
  start : Except FetchError (Option (List (String × Content))) := do
    let tree ← treePath repository revision
    if (← present disk tree).isNone then throw (.refNotFound revision)
    let start ← if directory = topName then pure tree else descend tree directory
    match ← present disk start with
    | none => return none
    | some (.directory entries) =>
        return some (listFiles entries (start.drop tree.length) recursive)
    | some _ => throw (.unexpectedEntry directory)

/-- Read one file of a commit; nothing if there is none. -/
def fetchFile (disk : Disk) (repository : Repository) (revision path : String) (limit : Int) :
    Except FetchError (Option (List UInt8)) := do
  match disk (← descend (← treePath repository revision) path) with
  | .error e => if e.isAbsence then return none else throw e.toFetchError
  | .ok (.file content) =>
      checkSize path content.measured limit
      return some content.data
  | .ok _ => throw (.unexpectedEntry path)

end ManifestRelay.Snapshot
