import Mathlib.Tactic.Common
import ManifestRelay.Proofs.Outcome
import ManifestRelay.Snapshot.Fetcher

/-!
# Requests as errands

What a request does is an errand: it asks the disk what lies at a path, tells the visitor
of a file or of a piece of one, and goes on as the answers say.  An errand has every path
in it that a disk is ever asked for, whatever the answers are.  Where a disk answers, what
is left of the errand is what polling, walking and fetching make of that disk.
-/

namespace ManifestRelay.Snapshot

open Fetch Metadata Outcome

/-- Questions to a disk and calls of a visitor, each with what follows for every answer. -/
inductive Errand (α : Type) where
  | done (result : Except FetchError α)
  /-- Break off, with nothing to show for it. -/
  | cut
  | ask (path : Path) (next : Except DiskError Node → Errand α)
  | entry (path : String) (next : Except FetchError Decision → Errand α)
  | chunk (path : String) (data : List UInt8) (next : Except FetchError Bool → Errand α)

namespace Errand

variable {α β : Type}

/-- Go on with what an errand yields, unless it fails. -/
def bind (f : α → Errand β) : Errand α → Errand β
  | done (.ok a) => f a
  | done (.error e) => done (.error e)
  | cut => cut
  | ask path next => ask path fun answer => (next answer).bind f
  | entry path next => entry path fun answer => (next answer).bind f
  | chunk path data next => chunk path data fun answer => (next answer).bind f

instance : Monad Errand where
  pure a := done (.ok a)
  bind errand f := errand.bind f

instance : MonadLift (Except FetchError) Errand where
  monadLift result := done result

def fail (e : FetchError) : Errand α := done (.error e)

def look (path : Path) : Errand (Except DiskError Node) := ask path fun answer => pure answer

@[simp] theorem done_ok_bind (a : α) (f : α → Errand β) : (done (.ok a) >>= f) = f a := rfl

@[simp] theorem look_bind (path : Path) (f : Except DiskError Node → Errand β) :
    (look path >>= f) = ask path f := rfl

/-! ### The errands of requests -/

def contents (path : Path) : Errand Content := do
  match ← look path with
  | .ok (.file content) => pure content
  | .ok (.directory _) => fail DiskError.isDirectory.toFetchError
  | .ok (.link _) => fail DiskError.tooManyLinks.toFetchError
  | .error e => fail e.toFetchError

/-- Read what the file of a ref says; nothing if there is no file or it is blank. -/
def readRefFile (repository : Path) (name : String) : Errand (Option (List Char)) := do
  let answer ← look (← descend repository name)
  Snapshot.readRefFile (fun _ => answer) repository name

def readRef (repository : Path) (name : String) : Errand (Option String) := do
  match ← readRefFile repository name with
  | none => return none
  | some value =>
      if refMark.isPrefixOf value then
        let target := String.ofList (Text.trimmed (value.drop refMark.length))
        return (← readRefFile repository target).map String.ofList
      else return some (String.ofList value)

def readRefs (repository : Path) : List String → Errand (List (String × String))
  | [] => pure []
  | name :: rest => do
      let commit ← readRef repository name
      let others ← readRefs repository rest
      return (commit.map (name, ·)).toList ++ others

def poll (repository : Repository) (last name : String) : Errand PollInfo := do
  let refs ← readRefs (← repositoryPath repository) (refCandidates name)
  let commit ← resolveRef name fun full => refs.lookup full
  return PollInfo.ofCommit commit last

/-- Measure a file of a commit and read it; nothing if there is none. -/
def fetchFile (repository : Repository) (revision path : String) (limit : Int) :
    Errand (Option (List UInt8)) := do
  let place ← descend (← treePath repository revision) path
  match ← look place with
  | .error e => if e.isAbsence then return none else fail e.toFetchError
  | .ok (.file content) =>
      checkSize path content.measured limit
      return some (← contents place).data
  | .ok _ => fail (.unexpectedEntry path)

def foldersAt (place : Path) (entries : List (String × Node)) : List Path :=
  entries.filterMap fun
    | (name, .directory _) => some (place ++ [name])
    | _ => none

def filesAt (place : Path) (entries : List (String × Node)) : List Path :=
  entries.filterMap fun
    | (name, .file _) => some (place ++ [name])
    | _ => none

/-- Read directories, last found first, until none is left, for the files that they list. -/
def explore (recursive : Bool) : Nat → List Path → List Path → Errand (List Path)
  | _, [], found => pure found
  | 0, _ :: _, _ => cut
  | reads + 1, place :: pending, found => do
      match ← look place with
      | .ok (.directory entries) =>
          let folders := if recursive then (foldersAt place entries).reverse else []
          explore recursive reads (folders ++ pending) (found ++ filesAt place entries)
      | .ok _ => fail DiskError.notDirectory.toFetchError
      | .error e => fail e.toFetchError

/-- Hand over pieces of a file while they stay within `limit`; `total` bytes came before. -/
def handOver (path : String) (limit : Int) (rest : Errand Unit) :
    Nat → List (List UInt8) → Errand Unit
  | _, [] => rest
  | total, piece :: more => do
      checkSize path (total + piece.length) limit
      chunk path piece fun
        | .error e => fail e
        | .ok true => pure ()
        | .ok false => handOver path limit rest (total + piece.length) more

/-- Offer files one after another; read and hand over those that are taken. -/
def offer : List (String × Path) → Errand Unit
  | [] => pure ()
  | (path, place) :: rest => entry path fun
      | .error e => fail e
      | .ok .skip => offer rest
      | .ok (.take limit) => do
          let content ← contents place
          checkSize path content.measured limit
          handOver path limit (offer rest) 0 (piecesOf (readSize - 1) content.data)

/-- Put files in the order of their paths from the top of a tree. -/
def inOrder (tree : Path) (files : List Path) : List (String × Path) :=
  (files.map fun path => (pathText (path.drop tree.length), path)).mergeSort
    fun a b => decide (a.1 ≤ b.1)

/-- Walk the files below a directory of a commit, reading no more than `reads` directories. -/
def visit (repository : Repository) (revision directory : String) (recursive : Bool)
    (reads : Nat) : Errand Unit := do
  let tree ← treePath repository revision
  match ← look tree with
  | .error .missing => fail (.refNotFound revision)
  | .error e => fail e.toFetchError
  | .ok _ =>
      let start ← if directory = topName then pure tree else descend tree directory
      match ← look start with
      | .error .missing => pure ()
      | .error e => fail e.toFetchError
      | .ok (.directory _) => do
          offer (inOrder tree (← explore recursive reads [start] []))
      | .ok _ => fail (.unexpectedEntry directory)

/-! ### Answers of a disk -/

/-- What is left of an errand for its visitor when the disk has answered. -/
def answered (disk : Disk) : Errand α → Errand α
  | done result => done result
  | cut => cut
  | ask path next => (next (disk path)).answered disk
  | entry path next => entry path fun answer => (next answer).answered disk
  | chunk path data next => chunk path data fun answer => (next answer).answered disk

def ofWalk : Walk → Errand Unit
  | .finished result => done result
  | .missing .. => done (.ok ())
  | .entry path next => entry path fun answer => ofWalk (next answer)
  | .chunk path data next => chunk path data fun answer => ofWalk (next answer)

section Answered

variable {disk : Disk}

theorem answered_bind (errand : Errand α) (f : α → Errand β) :
    (errand >>= f).answered disk = errand.answered disk >>= fun a => (f a).answered disk := by
  induction errand with
  | done result => cases result <;> rfl
  | cut => rfl
  | ask path next ih => exact ih (disk path)
  | entry path next ih => exact congrArg (entry path) (funext ih)
  | chunk path data next ih => exact congrArg (chunk path data) (funext ih)

theorem answered_bind_of_done {errand : Errand α} {result : Except FetchError α}
    (done : errand.answered disk = .done result) (f : α → Errand β) {g : α → Except FetchError β}
    (later : ∀ a, (f a).answered disk = .done (g a)) :
    (errand >>= f).answered disk = .done (result >>= g) := by
  rw [answered_bind, done]
  cases result with
  | ok a => exact later a
  | error e => rfl

theorem answered_readRefFile (repository : Path) (name : String) :
    (readRefFile repository name).answered disk =
      done (Snapshot.readRefFile disk repository name) := by
  rw [readRefFile]
  cases hpath : descend repository name with
  | error e =>
      rw [Snapshot.readRefFile, hpath]
      rfl
  | ok path =>
      have same : Snapshot.readRefFile (fun _ => disk path) repository name =
          Snapshot.readRefFile disk repository name := by
        rw [Snapshot.readRefFile, Snapshot.readRefFile, hpath]
        rfl
      exact congrArg done same

theorem answered_readRef (repository : Path) (name : String) :
    (readRef repository name).answered disk = done (Snapshot.readRef disk repository name) := by
  refine answered_bind_of_done (answered_readRefFile repository name) _ fun found => ?_
  cases found with
  | none => rfl
  | some value =>
      dsimp only
      split
      · exact answered_bind_of_done (answered_readRefFile repository _) _ fun target => rfl
      · rfl

theorem answered_readRefs (repository : Path) (names : List String) :
    (readRefs repository names).answered disk = done (Snapshot.readRefs disk repository names) := by
  induction names with
  | nil => rfl
  | cons name rest ih =>
      refine answered_bind_of_done (answered_readRef repository name) _ fun commit => ?_
      exact answered_bind_of_done ih _ fun others => rfl

theorem answered_poll (repository : Repository) (last name : String) :
    (poll repository last name).answered disk = done (Snapshot.poll disk repository last name) := by
  refine answered_bind_of_done rfl _ fun place => ?_
  refine answered_bind_of_done (answered_readRefs place (refCandidates name)) _ fun refs => ?_
  exact answered_bind_of_done rfl _ fun commit => rfl

theorem answered_contents {path : Path} {content : Content}
    (found : disk path = .ok (.file content)) :
    (contents path).answered disk = done (.ok content) := by
  rw [contents, look_bind, answered, found]
  rfl

theorem answered_fetchFile (repository : Repository) (revision path : String) (limit : Int) :
    (fetchFile repository revision path limit).answered disk =
      done (Snapshot.fetchFile disk repository revision path limit) := by
  refine answered_bind_of_done rfl _ fun tree => ?_
  refine answered_bind_of_done rfl _ fun place => ?_
  rw [look_bind, answered]
  cases found : disk place with
  | error e => dsimp only; split <;> rfl
  | ok node =>
      cases node with
      | file content =>
          refine answered_bind_of_done rfl _ fun _ => ?_
          exact answered_bind_of_done (answered_contents found) _
            (g := fun read => .ok (some read.data)) fun read => rfl
      | link target => rfl
      | directory entries => rfl

end Answered

end Errand

end ManifestRelay.Snapshot
