import Mathlib
import ManifestRelay.Proofs.Snapshot.Absence

/-!
# Files in one go and in pieces

Fetching measures a file and reads it whole; a walk that takes the file measures it too and then
hands it over piece by piece, with the limit checked again before every piece.  Both let the same
files pass, have the same bytes of them, and refuse the others in the same words.
-/

namespace ManifestRelay.Snapshot

open Fetch Metadata Outcome

/-! ### Paths of files -/

section Names

variable {path : Path} (nonempty : path ≠ []) (names : ∀ name ∈ path, IsFileName name)

include nonempty names

end Names

/-! ### In one go -/

/-- A walk gets through what it was told first: it goes on to another file, or ends well. -/
def GetsThrough (after : List Reply) (result : Except FetchError Unit) : Prop :=
  enteredPaths after ≠ [] ∨ result = .ok ()

/-- A file is read in pieces of one length, but for the last, which is no longer and not empty. -/
structure IsReadInPieces (path : String) (data : List UInt8) (chunks : List Chunk) : Prop where
  own : ∀ chunk ∈ chunks, chunk.path = path
  /-- The pieces are what a buffer is filled with, however many reads that takes. -/
  filled : ∀ pieces, IsStreamed readSize data pieces ↔ pieces = chunks.map Chunk.data
  nonempty : ∀ chunk ∈ chunks, chunk.data ≠ []
  size : ∀ chunk ∈ chunks, chunk.data.length ≤ readSize
  full : ∀ chunk ∈ chunks.dropLast, chunk.data.length = readSize
  whole : chunks.flatMap Chunk.data = data

section Offers

variable {files : List (Path × List UInt8)} {before after : List Reply} {path : String}
  {answer : Except FetchError Decision} {result : Except FetchError Unit}

end Offers

/-! ### Every visit of a file -/

section Snapshots

variable {root tree : Node} {repository : Repository} {revision : String}
  (snapshot : IsSnapshot root repository revision tree)

include snapshot

section Files

variable {path : Path} {data : List UInt8} (nonempty : path ≠ [])
  (isFile : tree.at? path = some (.file (.ofBytes data)))

include nonempty isFile

end Files

end Snapshots

/-! ### A visit of one file -/

def only (path : String) (limit : Int) : Visitor (StateM Unit) where
  entry other := pure (if other = path then .take limit else .skip)
  chunk _ _ := pure false

/-- What is fetched of a file agrees with what a visit that takes it was told. -/
structure Agrees (fetched : Except FetchError (Option (List UInt8))) (path : String)
    (data : List UInt8) (limit : Int) (after : List Reply) (result : Except FetchError Unit) :
    Prop where
  through : (∃ bytes, fetched = .ok (some bytes)) ↔ GetsThrough after result
  pieces : ∀ bytes, fetched = .ok (some bytes) →
    bytes = data ∧ IsReadInPieces path bytes (chunksAhead after)
  refused : ¬ GetsThrough after result →
    fetched = .error (.fileTooBig path data.length limit) ∧
      result = .error (.fileTooBig path data.length limit)

end ManifestRelay.Snapshot
