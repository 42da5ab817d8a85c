import ManifestRelay.Proofs.Snapshot.Exploring
import ManifestRelay.Proofs.Snapshot.Resolution

/-!
# Requests that stay in their repository

Names in a request, in the file of a ref, or in a directory are all that a path to the
disk is made of.  Every way for them to get there drops the names that say nothing and
refuses those that go up, so a path starts with the place of the repository, and each
name on it goes one step down.  A request with any other name ends before the disk is
asked with it.
-/

namespace ManifestRelay.Snapshot

open Fetch Metadata Outcome

structure IsStep (name : String) : Prop where
  ne_empty : name ≠ ""
  ne_dot : name ≠ "."
  ne_dots : name ≠ ".."
  no_slash : '/' ∉ name.toList

/-- A path leads down to a place and on, one step with every name. -/
structure LiesIn (place path : Path) : Prop where
  below : place <+: path
  steps : ∀ name ∈ path, IsStep name

theorem LiesIn.step {place path : Path} (lies : LiesIn place path) {name : String}
    (step : IsStep name) : LiesIn place (path ++ [name]) where
  below := lies.below.trans (List.prefix_append path [name])
  steps := List.forall_mem_append.2 ⟨lies.steps, List.forall_mem_singleton.2 step⟩

theorem LiesIn.self {place : Path} (steps : ∀ name ∈ place, IsStep name) : LiesIn place place :=
  ⟨List.prefix_refl place, steps⟩

theorem liesIn_of_descend {place base path : Path} {relative : String} (lies : LiesIn place base)
    (descended : descend base relative = .ok path) : LiesIn place path := by
  obtain ⟨inside, rfl⟩ := descend_eq_ok_iff.1 descended
  refine ⟨lies.below.trans (List.prefix_append base _), List.forall_mem_append.2 ⟨lies.steps, ?_⟩⟩
  intro name hname
  obtain ⟨full, nodot, nodots⟩ := goes_down_of_mem_namesOf inside hname
  exact ⟨full, nodot, nodots, no_slash_of_mem_namesOf hname⟩

/-! ### Where repositories and trees lie -/

def outside (repository : Repository) : String :=
  if leaves repository.storageName then repository.storageName else repository.relativePath

def placeOf (repository : Repository) : Path :=
  namesOf repository.storageName ++ namesOf repository.relativePath

def treeOf (repository : Repository) (revision : String) : Path :=
  placeOf repository ++ ["trees", revision]

section Places

variable {repository : Repository} {revision : String} {path : Path}

theorem repositoryPath_eq_ok_iff : repositoryPath repository = .ok path ↔
    (leaves repository.storageName = false ∧ leaves repository.relativePath = false) ∧
      path = placeOf repository := by
  rw [repositoryPath, bind_eq_ok]
  simp only [descend_eq_ok_iff, List.nil_append]
  constructor
  · rintro ⟨storage, ⟨hstorage, rfl⟩, hrelative, rfl⟩
    exact ⟨⟨hstorage, hrelative⟩, rfl⟩
  · rintro ⟨⟨hstorage, hrelative⟩, rfl⟩
    exact ⟨_, ⟨hstorage, rfl⟩, hrelative, rfl⟩

theorem liesIn_of_repositoryPath (lies : repositoryPath repository = .ok path) :
    LiesIn (placeOf repository) path := by
  obtain ⟨-, rfl⟩ := repositoryPath_eq_ok_iff.1 lies
  obtain ⟨storage, hstorage, hrelative⟩ := bind_eq_ok.1 (by rw [repositoryPath] at lies; exact lies)
  have htop : LiesIn [] [] := .self (List.forall_mem_nil _)
  exact .self (liesIn_of_descend (liesIn_of_descend htop hstorage) hrelative).steps

theorem repositoryPath_of_leaves
    (h : leaves repository.storageName = true ∨ leaves repository.relativePath = true) :
    repositoryPath repository = .error (.notFound (outside repository)) := by
  rw [repositoryPath, outside]
  cases hstorage : leaves repository.storageName with
  | true =>
      rw [descend_of_leaves hstorage]
      rfl
  | false =>
      have hrelative := h.resolve_left (by rw [hstorage]; exact Bool.false_ne_true)
      rw [descend_eq_ok_iff.2 ⟨hstorage, rfl⟩, ok_bind, descend_of_leaves hrelative]
      rfl

theorem isStep_of_isTreeName (name : isTreeName revision = true) : IsStep revision := by
  simp only [isTreeName, Bool.and_eq_true, bne_iff_ne, Bool.not_eq_true',
    String.contains_char_eq, decide_eq_false_iff_not] at name
  obtain ⟨⟨⟨full, noslash⟩, nodot⟩, nodots⟩ := name
  exact ⟨full, nodot, nodots, noslash⟩

theorem treePath_eq (name : isTreeName revision = true) :
    treePath repository revision = (repositoryPath repository).map (· ++ ["trees", revision]) := by
  rw [treePath, name]
  cases repositoryPath repository <;> rfl

theorem treePath_of_not_isTreeName (noname : isTreeName revision = false) :
    treePath repository revision = .error (.refNotFound revision) := by
  rw [treePath, noname]
  rfl

theorem liesIn_of_treePath (lies : treePath repository revision = .ok path) :
    LiesIn (treeOf repository revision) path := by
  cases name : isTreeName revision with
  | false =>
      rw [treePath_of_not_isTreeName name] at lies
      cases lies
  | true =>
      rw [treePath_eq name] at lies
      obtain ⟨place, hplace, rfl⟩ := map_eq_ok.1 lies
      obtain ⟨-, rfl⟩ := repositoryPath_eq_ok_iff.1 hplace
      refine .self (List.forall_mem_append.2 ⟨(liesIn_of_repositoryPath hplace).steps, ?_⟩)
      have trees : IsStep "trees" := ⟨by decide, by decide, by decide, by decide⟩
      simpa using ⟨trees, isStep_of_isTreeName name⟩

end Places

/-! ### Errands that keep to a place -/

/-- An answer as disks give them: what a directory lists lies one step below it. -/
def IsAnswer (answer : Except DiskError Node) : Prop :=
  ∀ entries, answer = .ok (.directory entries) → ∀ entry ∈ entries, IsStep entry.1

namespace Errand

variable {α β : Type} {allowed : Path → Prop}

/-- Whatever the disk and the visitor answer, only such paths are asked for, and what the errand
yields is of a kind. -/
def Keeps (allowed : Path → Prop) (yields : α → Prop) : Errand α → Prop
  | done (.ok a) => yields a
  | done (.error _) => True
  | cut => True
  | ask path next =>
      allowed path ∧ ∀ answer, IsAnswer answer → (next answer).Keeps allowed yields
  | entry _ next => ∀ answer, (next answer).Keeps allowed yields
  | chunk _ _ next => ∀ answer, (next answer).Keeps allowed yields

theorem Keeps.bind {yields : α → Prop} {later : β → Prop} {errand : Errand α}
    {f : α → Errand β} (first : errand.Keeps allowed yields)
    (rest : ∀ a, yields a → (f a).Keeps allowed later) : (errand >>= f).Keeps allowed later := by
  induction errand with
  | done result =>
      cases result with
      | ok a => exact rest a first
      | error e => trivial
  | cut => trivial
  | ask path next ih => exact ⟨first.1, fun answer hanswer => ih answer (first.2 answer hanswer)⟩
  | entry path next ih => exact fun answer => ih answer (first answer)
  | chunk path data next ih => exact fun answer => ih answer (first answer)

theorem keeps_done {result : Except FetchError α} {yields : α → Prop}
    (h : ∀ a, result = .ok a → yields a) : (done result).Keeps allowed yields := by
  cases result with
  | ok a => exact h a rfl
  | error e => trivial

abbrev KeepsTo (allowed : Path → Prop) (errand : Errand α) : Prop :=
  errand.Keeps allowed fun _ => True

theorem keepsTo_done (result : Except FetchError α) : (done result).KeepsTo allowed :=
  keeps_done fun _ _ => trivial

section Requests

variable {place : Path}

theorem keeps_contents {path : Path} (lies : allowed path) : (contents path).KeepsTo allowed := by
  refine ⟨lies, fun answer _ => ?_⟩
  rcases answer with e | node
  · trivial
  · cases node <;> trivial

theorem keeps_readRefFile (lies : LiesIn place place) (ref : String) :
    (readRefFile place ref).KeepsTo (LiesIn place) := by
  refine (keeps_done fun path => liesIn_of_descend lies).bind fun path hpath => ?_
  exact ⟨hpath, fun answer _ => keepsTo_done (Snapshot.readRefFile (fun _ => answer) place ref)⟩

theorem keeps_readRef (lies : LiesIn place place) (ref : String) :
    (readRef place ref).KeepsTo (LiesIn place) := by
  refine (keeps_readRefFile lies ref).bind fun found _ => ?_
  cases found with
  | none => trivial
  | some value =>
      dsimp only
      split
      · exact (keeps_readRefFile lies _).bind fun target _ => trivial
      · trivial

theorem keeps_readRefs (lies : LiesIn place place) (refs : List String) :
    (readRefs place refs).KeepsTo (LiesIn place) := by
  induction refs with
  | nil => trivial
  | cons ref rest ih =>
      exact (keeps_readRef lies ref).bind fun commit _ => ih.bind fun others _ => trivial

theorem keeps_poll (repository : Repository) (last name : String) :
    (poll repository last name).KeepsTo (LiesIn (placeOf repository)) := by
  refine (keeps_done fun path lies => ?_).bind fun path (hpath : path = placeOf repository ∧
    LiesIn (placeOf repository) path) => ?_
  · exact ⟨(repositoryPath_eq_ok_iff.1 lies).2, liesIn_of_repositoryPath lies⟩
  obtain ⟨rfl, hplace⟩ := hpath
  refine (keeps_readRefs hplace _).bind fun refs _ => ?_
  exact (keepsTo_done (resolveRef name _)).bind fun commit _ => trivial

theorem keeps_fetchFile (repository : Repository) (revision path : String) (limit : Int) :
    (fetchFile repository revision path limit).KeepsTo (LiesIn (treeOf repository revision)) := by
  refine (keeps_done fun tree => liesIn_of_treePath).bind fun tree htree => ?_
  refine (keeps_done fun file => liesIn_of_descend htree).bind fun file hfile => ?_
  refine ⟨hfile, fun answer _ => ?_⟩
  rcases answer with e | node
  · change Errand.KeepsTo _ (if e.isAbsence then _ else _)
    split <;> trivial
  · cases node with
    | file content =>
        refine (keepsTo_done (checkSize path content.measured limit)).bind fun _ _ => ?_
        exact (keeps_contents hfile).bind fun read _ => keepsTo_done (.ok (some read.data))
    | link target => trivial
    | directory entries => trivial

theorem liesIn_of_listed {path : Path} {entries : List (String × Node)} {listed : List Path}
    (lies : LiesIn place path) (steps : ∀ entry ∈ entries, IsStep entry.1)
    (h : ∀ file ∈ listed, ∃ entry ∈ entries, file = path ++ [entry.1]) :
    ∀ file ∈ listed, LiesIn place file := by
  intro file hfile
  obtain ⟨entry, hentry, rfl⟩ := h file hfile
  exact lies.step (steps entry hentry)

theorem listed_of_mem_foldersAt {path file : Path} {entries : List (String × Node)}
    (h : file ∈ foldersAt path entries) : ∃ entry ∈ entries, file = path ++ [entry.1] := by
  obtain ⟨⟨name, node⟩, hentry, hsome⟩ := List.mem_filterMap.1 h
  cases node <;> cases hsome
  exact ⟨_, hentry, rfl⟩

theorem listed_of_mem_filesAt {path file : Path} {entries : List (String × Node)}
    (h : file ∈ filesAt path entries) : ∃ entry ∈ entries, file = path ++ [entry.1] := by
  obtain ⟨⟨name, node⟩, hentry, hsome⟩ := List.mem_filterMap.1 h
  cases node <;> cases hsome
  exact ⟨_, hentry, rfl⟩

/-- Exploring goes from directories of a place to what they list, which lies there too. -/
theorem keeps_explore (recursive : Bool) (reads : Nat) {pending found : List Path}
    (hpending : ∀ path ∈ pending, LiesIn place path) (hfound : ∀ path ∈ found, LiesIn place path) :
    (explore recursive reads pending found).Keeps (LiesIn place)
      fun files => ∀ path ∈ files, LiesIn place path := by
  induction reads generalizing pending found with
  | zero => cases pending <;> first | exact hfound | trivial
  | succ reads ih =>
      cases pending with
      | nil => exact hfound
      | cons path rest =>
          obtain ⟨hpath, hrest⟩ := List.forall_mem_cons.1 hpending
          refine ⟨hpath, fun answer hanswer => ?_⟩
          rcases answer with e | node
          · trivial
          · cases node with
            | file content => trivial
            | link target => trivial
            | directory entries =>
                have steps := hanswer entries rfl
                refine ih (List.forall_mem_append.2 ⟨?_, hrest⟩) (List.forall_mem_append.2 ⟨hfound, ?_⟩)
                · refine liesIn_of_listed hpath steps fun file hfile => ?_
                  split at hfile
                  · exact listed_of_mem_foldersAt (List.mem_reverse.1 hfile)
                  · cases hfile
                · exact liesIn_of_listed hpath steps fun file => listed_of_mem_filesAt

theorem keeps_handOver (path : String) (limit : Int) {rest : Errand Unit}
    (keeps : rest.KeepsTo allowed) (total : Nat) (pieces : List (List UInt8)) :
    (handOver path limit rest total pieces).KeepsTo allowed := by
  induction pieces generalizing total with
  | nil => exact keeps
  | cons piece more ih =>
      refine (keepsTo_done (checkSize path (total + piece.length) limit)).bind fun _ _ => ?_
      intro answer
      rcases answer with e | _ | _
      · trivial
      · exact ih _
      · trivial

theorem keeps_offer {files : List (String × Path)} (lie : ∀ file ∈ files, allowed file.2) :
    (offer files).KeepsTo allowed := by
  induction files with
  | nil => trivial
  | cons file rest ih =>
      obtain ⟨hfile, hrest⟩ := List.forall_mem_cons.1 lie
      intro answer
      rcases answer with e | _ | limit
      · trivial
      · exact ih hrest
      · refine (keeps_contents hfile).bind fun content _ => ?_
        refine (keepsTo_done (checkSize file.1 content.measured limit)).bind fun _ _ => ?_
        exact keeps_handOver file.1 limit (ih hrest) 0 _

theorem keeps_visit (repository : Repository) (revision directory : String) (recursive : Bool)
    (reads : Nat) : (visit repository revision directory recursive reads).KeepsTo
      (LiesIn (treeOf repository revision)) := by
  rw [visit_eq]
  refine (keeps_done fun tree => liesIn_of_treePath).bind fun tree htree => ?_
  refine ⟨htree, fun answer _ => ?_⟩
  rcases answer with e | top
  · cases e <;> trivial
  refine (keeps_done fun start => liesIn_of_descend htree).bind fun start hstart => ?_
  refine ⟨hstart, fun answer _ => ?_⟩
  rcases answer with e | node
  · cases e <;> trivial
  cases node with
  | file content => trivial
  | link target => trivial
  | directory entries =>
      refine (keeps_explore recursive reads (List.forall_mem_singleton.2 hstart)
        (List.forall_mem_nil _)).bind fun files hfiles => ?_
      refine keeps_offer fun file hfile => ?_
      rw [inOrder, List.mem_mergeSort] at hfile
      obtain ⟨path, hpath, rfl⟩ := List.mem_map.1 hfile
      exact hfiles path hpath

end Requests

/-! ### Refusals -/

section Refusals

variable {repository : Repository} {e : FetchError}

theorem poll_of_refused (refused : repositoryPath repository = .error e) (last name : String) :
    poll repository last name = fail e := by
  rw [poll, refused]
  rfl

theorem visit_of_refused {revision : String} (refused : treePath repository revision = .error e)
    (directory : String) (recursive : Bool) (reads : Nat) :
    visit repository revision directory recursive reads = fail e := by
  rw [visit, refused]
  rfl

theorem fetchFile_of_refused {revision : String} (refused : treePath repository revision = .error e)
    (path : String) (limit : Int) : fetchFile repository revision path limit = fail e := by
  rw [fetchFile, refused]
  rfl

theorem readRef_of_leaves {ref : String} (h : leaves ref = true) (place : Path) :
    readRef place ref = fail (.notFound ref) := by
  rw [readRef, readRefFile, descend_of_leaves h]
  rfl

theorem leaves_of_mem_refCandidates {name : String} (up : ".." ∈ namesOf name) {ref : String}
    (h : ref ∈ refCandidates name) : leaves ref = true := by
  have full : name ≠ "" := by
    rintro rfl
    revert up
    decide
  rw [refCandidates, if_neg full, List.mem_cons, List.mem_singleton] at h
  have hheads : "refs/heads/".toList = "refs/heads".toList ++ ['/'] := rfl
  have htags : "refs/tags/".toList = "refs/tags".toList ++ ['/'] := rfl
  rcases h with rfl | rfl
  · exact leaves_of_mem (mem_namesOf_append up hheads)
  · exact leaves_of_mem (mem_namesOf_append up htags)

theorem poll_of_up {place : Path} (lies : repositoryPath repository = .ok place) {name : String}
    (up : ".." ∈ namesOf name) (last : String) :
    poll repository last name = fail (.notFound ("refs/heads/" ++ name)) := by
  have full : name ≠ "" := by
    rintro rfl
    revert up
    decide
  have candidates : refCandidates name = ["refs/heads/" ++ name, "refs/tags/" ++ name] := by
    rw [refCandidates, if_neg full]
  have leaving : leaves ("refs/heads/" ++ name) = true :=
    leaves_of_mem_refCandidates up (by rw [candidates]; exact List.mem_cons_self)
  have hrefs : readRefs place (refCandidates name) = fail (.notFound ("refs/heads/" ++ name)) := by
    rw [candidates, readRefs, readRef_of_leaves leaving]
    rfl
  rw [poll, lies]
  exact congrArg (· >>= _) hrefs

theorem readRefFile_eq_ask {place : Path} {ref : String} (inside : leaves ref = false) :
    readRefFile place ref = ask (place ++ namesOf ref) fun answer =>
      done (Snapshot.readRefFile (fun _ => answer) place ref) := by
  rw [readRefFile, descend_eq_ok_iff.2 ⟨inside, rfl⟩]
  rfl

theorem readRef_of_target_leaves {place : Path} {ref : String} {rest : List Char}
    {answer : Except DiskError Node} (holds : Holds (fun _ => answer) place ref (refMark ++ rest))
    (leaving : leaves (targetOf rest) = true) : ∃ next,
      readRef place ref = ask (place ++ namesOf ref) next ∧
        next answer = fail (.notFound (targetOf rest)) := by
  have htarget : readRefFile place (targetOf rest) = fail (.notFound (targetOf rest)) := by
    rw [readRefFile, descend_of_leaves leaving]
    rfl
  rw [readRef, readRefFile_eq_ask holds.1]
  refine ⟨_, rfl, ?_⟩
  dsimp only
  rw [readRefFile_of_holds holds, if_neg (refMark_append_ne_nil rest), Errand.bind]
  dsimp only
  rw [if_pos (isPrefixOf_refMark_append rest), List.drop_left, ← targetOf, htarget]
  rfl

theorem visit_of_leaves {revision directory : String} {tree : Path}
    (lies : treePath repository revision = .ok tree) (leaving : leaves directory = true)
    (recursive : Bool) (reads : Nat) :
    visit repository revision directory recursive reads = ask tree fun
      | .error .missing => fail (.refNotFound revision)
      | .error e => fail e.toFetchError
      | .ok _ => fail (.notFound directory) := by
  rw [visit_eq, lies, done_ok_bind, descend_of_leaves leaving]
  rfl

theorem fetchFile_of_leaves {revision path : String} {tree : Path}
    (lies : treePath repository revision = .ok tree) (leaving : leaves path = true) (limit : Int) :
    fetchFile repository revision path limit = fail (.notFound path) := by
  rw [fetchFile, lies]
  exact congrArg (fun place => done place >>= _) (descend_of_leaves leaving tree)

end Refusals

end Errand

/-- Polling fails if a ref that the name may stand for refers out of the repository. -/
theorem poll_of_target_leaves {repository : Repository} {disk : Disk} {place : Path}
    {ref name : String} {rest : List Char} (lies : repositoryPath repository = .ok place)
    (candidate : ref ∈ refCandidates name) (holds : Holds disk place ref (refMark ++ rest))
    (leaving : leaves (targetOf rest) = true) (last : String) (info : PollInfo) :
    poll disk repository last name ≠ .ok info := by
  intro polled
  obtain ⟨refs, -, read, -⟩ := (poll_eq_ok_iff lies last).1 polled
  have legible := exists_readRefs_iff.1 ⟨refs, read⟩ ref candidate
  rcases legible.target rest holds with ⟨inside, -⟩ | ⟨-, inside, -⟩
  · exact Bool.false_ne_true (inside.symm.trans leaving)
  · exact Bool.false_ne_true (inside.symm.trans leaving)

/-! ### All requests -/

/-- Every path that a request asks for, whatever the answers are, lies in the repository; if it is a
request for files of a commit, it lies in the tree of the commit. -/
structure StaysInside (repository : Repository) : Prop where
  poll (last name : String) :
    (Errand.poll repository last name).KeepsTo (LiesIn (placeOf repository))
  visit (revision directory : String) (recursive : Bool) (reads : Nat) :
    (Errand.visit repository revision directory recursive reads).KeepsTo
      (LiesIn (treeOf repository revision))
  fetchFile (revision path : String) (limit : Int) :
    (Errand.fetchFile repository revision path limit).KeepsTo (LiesIn (treeOf repository revision))

/-- What would leave its directory is refused before the disk is asked with it. -/
structure RefusesToLeave (repository : Repository) : Prop where
  place (leaving : leaves repository.storageName = true ∨ leaves repository.relativePath = true) :
    (∀ last name, Errand.poll repository last name = .fail (.notFound (outside repository))) ∧
      ∀ revision, isTreeName revision = true →
        (∀ directory recursive reads,
          Errand.visit repository revision directory recursive reads =
            .fail (.notFound (outside repository))) ∧
        ∀ path limit,
          Errand.fetchFile repository revision path limit = .fail (.notFound (outside repository))
  revision {revision : String} (noname : isTreeName revision = false) :
    (∀ directory recursive reads, Errand.visit repository revision directory recursive reads =
      .fail (.refNotFound revision)) ∧
    ∀ path limit, Errand.fetchFile repository revision path limit = .fail (.refNotFound revision)
  name {place : Path} {name : String} (lies : repositoryPath repository = .ok place)
    (up : ".." ∈ namesOf name) (last : String) :
    Errand.poll repository last name = .fail (.notFound ("refs/heads/" ++ name))
  target {place : Path} {ref : String} {rest : List Char} {answer : Except DiskError Node}
    (holds : Holds (fun _ => answer) place ref (refMark ++ rest))
    (leaving : leaves (targetOf rest) = true) :
    ∃ next, Errand.readRef place ref = .ask (place ++ namesOf ref) next ∧
      next answer = .fail (.notFound (targetOf rest))
  poll {disk : Disk} {place : Path} {ref name : String} {rest : List Char}
    (lies : repositoryPath repository = .ok place) (candidate : ref ∈ refCandidates name)
    (holds : Holds disk place ref (refMark ++ rest)) (leaving : leaves (targetOf rest) = true)
    (last : String) (info : PollInfo) : Snapshot.poll disk repository last name ≠ .ok info
  directory {revision directory : String} {tree : Path}
    (lies : treePath repository revision = .ok tree) (leaving : leaves directory = true)
    (recursive : Bool) (reads : Nat) :
    Errand.visit repository revision directory recursive reads = .ask tree fun
      | .error .missing => .fail (.refNotFound revision)
      | .error e => .fail e.toFetchError
      | .ok _ => .fail (.notFound directory)
  path {revision path : String} {tree : Path} (lies : treePath repository revision = .ok tree)
    (leaving : leaves path = true) (limit : Int) :
    Errand.fetchFile repository revision path limit = .fail (.notFound path)

/-- The errands of requests are what polling, walking and fetching do: of every disk they make the
same, and of a disk that is a tree, when they may read its directories, the same walk. -/
structure IsCarriedOut (repository : Repository) : Prop where
  poll (disk : Disk) (last name : String) : (Errand.poll repository last name).answered disk =
    .done (Snapshot.poll disk repository last name)
  visit {root : Node} (tidy : root.IsTidy) (revision directory : String) (recursive : Bool) :
    ∃ enough, ∀ reads, enough ≤ reads →
      (Errand.visit repository revision directory recursive reads).answered root.find? =
        .ofWalk (Snapshot.visit root.find? repository revision directory recursive)
  fetchFile (disk : Disk) (revision path : String) (limit : Int) :
    (Errand.fetchFile repository revision path limit).answered disk =
      .done (Snapshot.fetchFile disk repository revision path limit)

theorem staysInside (repository : Repository) : StaysInside repository where
  poll := Errand.keeps_poll repository
  visit := Errand.keeps_visit repository
  fetchFile := Errand.keeps_fetchFile repository

theorem isCarriedOut (repository : Repository) : IsCarriedOut repository where
  poll _ := Errand.answered_poll repository
  visit tidy := Errand.answered_visit tidy repository
  fetchFile _ := Errand.answered_fetchFile repository

theorem refusesToLeave (repository : Repository) : RefusesToLeave repository where
  place leaving := by
    have refused := repositoryPath_of_leaves leaving
    refine ⟨Errand.poll_of_refused refused, fun revision name => ?_⟩
    have htree : treePath repository revision = .error (.notFound (outside repository)) := by
      rw [treePath_eq name, refused]
      rfl
    exact ⟨Errand.visit_of_refused htree, Errand.fetchFile_of_refused htree⟩
  revision noname :=
    have refused := treePath_of_not_isTreeName noname
    ⟨Errand.visit_of_refused refused, Errand.fetchFile_of_refused refused⟩
  name lies up := Errand.poll_of_up lies up
  target := Errand.readRef_of_target_leaves
  poll lies candidate holds leaving := poll_of_target_leaves lies candidate holds leaving
  directory := Errand.visit_of_leaves
  path := Errand.fetchFile_of_leaves

/-- No request leaves its repository. -/
theorem requests_stay_inside (repository : Repository) :
    StaysInside repository ∧ RefusesToLeave repository ∧ IsCarriedOut repository :=
  ⟨staysInside repository, refusesToLeave repository, isCarriedOut repository⟩

end ManifestRelay.Snapshot
