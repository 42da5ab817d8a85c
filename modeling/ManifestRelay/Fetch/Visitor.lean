import ManifestRelay.Fetch.Error

/-!
# Walks over the files of a tree and their visitors

A walk offers files to a visitor one after another.  For a file that the
visitor takes, its contents follow in chunks before the next file is offered.
The visitor may fail at any call, and may end the walk early after a chunk.

`Walk` holds what a walk does as data, so that "every walk" can be quantified
over, and `Visitor` leaves open the effects that a visitor has.
-/

namespace ManifestRelay.Fetch

inductive Decision where
  | skip
  /-- Take the file if it has at most `limit` bytes. -/
  | take (limit : Int)
deriving DecidableEq, Repr, Inhabited

/-- The calls of a walk, each with what follows for every answer. -/
inductive Walk where
  | finished (result : Except FetchError Unit)
  /-- The directory to be walked is not there, so there is nothing to offer. -/
  | missing (directory revision : String)
  | entry (path : String) (next : Except FetchError Decision → Walk)
  | chunk (path : String) (data : List UInt8) (next : Except FetchError Bool → Walk)

/-- A receiver of files, with effects in `m`. -/
structure Visitor (m : Type → Type) where
  entry : String → ExceptT FetchError m Decision
  /-- Take part of a file; the answer tells whether the walk may end. -/
  chunk : String → List UInt8 → ExceptT FetchError m Bool

namespace Walk

variable {m : Type → Type} [Monad m]

/-- Carry out a walk before a visitor. -/
def drive (visitor : Visitor m) : Walk → m (Except FetchError Unit)
  | finished result => pure result
  | missing .. => pure (.ok ())
  | entry path next => do drive visitor (next (← (visitor.entry path).run))
  | chunk path data next => do drive visitor (next (← (visitor.chunk path data).run))

end Walk

/-- Cut a list into pieces of `size + 1` elements, the last of them shorter if need be. -/
def piecesOf {α : Type} (size : Nat) : List α → List (List α)
  | [] => []
  | a :: rest => (a :: rest.take size) :: piecesOf size (rest.drop size)
termination_by data => data.length
decreasing_by simp only [List.length_drop, List.length_cons]; omega

namespace Visitor

variable {m : Type → Type} [Monad m]

/-- Hand over pieces until one of them ends the walk. -/
def chunks (visitor : Visitor m) (path : String) : List (List UInt8) → ExceptT FetchError m Bool
  | [] => pure false
  | piece :: rest => do
      if ← visitor.chunk path piece then pure true else chunks visitor path rest

/-- The visitor that sees chunks of at most `limit` bytes, and at least one. -/
def rechunked (visitor : Visitor m) (limit : Nat) : Visitor m where
  entry := visitor.entry
  chunk path data := visitor.chunks path (piecesOf (limit - 1) data)

end Visitor

end ManifestRelay.Fetch
