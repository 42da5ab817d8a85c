import ManifestRelay.Fetch.Visitor
import ManifestRelay.Glob.Matcher
import ManifestRelay.Stream.Channel
import ManifestRelay.Turn.Frame

/-!
# Selecting files within a budget

A selection decides for each offered file whether a turn sends it.  Every offer
counts against the number of files, whether it is taken or not.  Files within a
directory whose name starts with a dot are passed over, and so are files that
the current glob does not match.  A file taken twice is a failure.  Sent bytes
come off one total, which all files of the turn share.
-/

namespace ManifestRelay.Turn

open Fetch

structure Budget where
  /-- Bytes of all files together. -/
  totalSize : Int
  fileSize : Int
  /-- Files offered, taken or not. -/
  fileCount : Nat
deriving DecidableEq, Repr, Inhabited

structure Selection where
  matcher : Option Glob.Matcher
  remaining : Int
  fileSize : Int
  maxCount : Nat
  count : Nat
  taken : List String

def components (path : List Char) : List (List Char) := path.splitOn '/'

/-- Whether a directory of this name is passed over. -/
def isHiddenName (name : List Char) : Bool := name.head? == some '.' && name != ['.']

/-- Whether a path lies in a hidden directory; the name of the file itself does not count. -/
def isHidden (path : String) : Bool := (components path.toList).dropLast.any isHiddenName

namespace Selection

def ofBudget (budget : Budget) : Selection :=
  ⟨none, budget.totalSize, budget.fileSize, budget.fileCount, 0, []⟩

def withMatcher (s : Selection) (matcher : Glob.Matcher) : Selection :=
  { s with matcher := some matcher }

def selects (s : Selection) (path : String) : Bool :=
  !isHidden path && s.matcher.any (·.matchesPath path)

/-- The most bytes the next file may have. -/
def limit (s : Selection) : Int := min s.remaining s.fileSize

def offer (s : Selection) (path : String) : Except FetchError Decision × Selection :=
  if s.count = s.maxCount then (.error (.tooManyFiles s.maxCount), s)
  else
    let counted := { s with count := s.count + 1 }
    if !s.selects path then (.ok .skip, counted)
    else if path ∈ s.taken then (.error (.duplicatePath path), counted)
    else (.ok (.take s.limit), { counted with taken := path :: s.taken })

/-- Take the bytes of a chunk off the total. -/
def charge (s : Selection) (size : Nat) : Except FetchError Unit × Selection :=
  let charged := { s with remaining := s.remaining - size }
  if charged.remaining < 0 then
    (.error (.broken "unexpected negative remaining total file size"), charged)
  else (.ok (), charged)

/-- The visitor that sends what the selection takes. -/
def visitor {m : Type → Type} [Monad m] (send : Frame → m (Except Stream.SendError Unit)) :
    Visitor (StateT Selection m) where
  entry path := fun s => pure (s.offer path)
  chunk path data := do
    ExceptT.mk fun s => pure (s.charge data.length)
    match ← ExceptT.lift (StateT.lift (send (.object path data))) with
    | .ok () => pure false
    | .error e => throw (.sendFailed e.message)

end Selection

end ManifestRelay.Turn
