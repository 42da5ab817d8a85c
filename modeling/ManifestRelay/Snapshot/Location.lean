import ManifestRelay.Metadata.Info
import ManifestRelay.Snapshot.Disk

/-!
# Where snapshots lie

Below the directory of a repository, `HEAD` and `refs/` name commits and
`trees/<commit>/` holds the files of a commit.  Requests name places by
relative paths; a path that would leave its directory is refused before the
disk is asked.
-/

namespace ManifestRelay.Snapshot

open Fetch Metadata

/-- The names on a path between slashes that say anything. -/
def namesOf (relative : String) : List String :=
  (Node.targetNames relative).filter fun name => name != "" && name != "."

/-- Whether a path leaves the directory that it starts from. -/
def leaves (relative : String) : Bool :=
  relative.startsWith "/" || (namesOf relative).contains ".."

def descend (base : Path) (relative : String) : Except FetchError Path :=
  if leaves relative then .error (.notFound relative) else .ok (base ++ namesOf relative)

def repositoryPath (repository : Repository) : Except FetchError Path := do
  descend (← descend [] repository.storageName) repository.relativePath

def isTreeName (revision : String) : Bool :=
  revision != "" && !revision.contains '/' && revision != "." && revision != ".."

def treePath (repository : Repository) (revision : String) : Except FetchError Path := do
  if !isTreeName revision then throw (.refNotFound revision)
  return (← repositoryPath repository) ++ ["trees", revision]

end ManifestRelay.Snapshot
