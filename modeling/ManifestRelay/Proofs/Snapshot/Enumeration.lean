import Mathlib
import ManifestRelay.Proofs.Snapshot.Errand
import ManifestRelay.Proofs.Snapshot.Listing

/-!
# Directories read in any order

A directory names its entries and says of each what it is, in an order that nobody
promises and that need not be the same twice.  A walk that reads one directory after
another goes where these answers lead it.  Whatever the order is, the files found and
those below the directories still pending are together the files below the start; every
read takes one directory from those pending, so the walk ends after as many reads as
there are directories.
-/

namespace ManifestRelay.Snapshot

open Fetch Metadata

namespace Node

inductive Kind where
  | file
  | link
  | directory
deriving DecidableEq, Repr

def kind : Node → Kind
  | file _ => .file
  | link _ => .link
  | directory _ => .directory

def linesOf (entries : List (String × Node)) : List (String × Kind) :=
  entries.map fun entry => (entry.1, entry.2.kind)

mutual

def folderCount : Node → Nat
  | file _ => 0
  | link _ => 0
  | directory entries => folderCountOf entries + 1

def folderCountOf : List (String × Node) → Nat
  | [] => 0
  | (_, node) :: rest => node.folderCount + folderCountOf rest

end

end Node

/-- An answer as a disk gives it that has a tree at `top`: a directory of the tree is listed in
full, in one order or another.  Nothing is said of an answer for any other path. -/
def Enumerates (tree : Node) (top path : Path) (answer : Except DiskError Node) : Prop :=
  ∀ place entries, path = top ++ place → tree.at? place = some (.directory entries) →
    ∃ listed, answer = .ok (.directory listed) ∧
      (Node.linesOf listed).Perm (Node.linesOf entries)

namespace Errand

variable {α : Type}

/-- However the disk answers within bounds, the errand asks nobody else, is not broken off, does not
fail, and yields a result of a kind. -/
def Ensures (answers : Path → Except DiskError Node → Prop) (yields : α → Prop) : Errand α → Prop
  | done (.ok a) => yields a
  | done (.error _) => False
  | cut => False
  | ask path next => ∀ answer, answers path answer → (next answer).Ensures answers yields
  | entry _ _ => False
  | chunk _ _ _ => False

section Ensuring

variable {answers : Path → Except DiskError Node → Prop} {yields : α → Prop} {errand : Errand α}

theorem Ensures.imp {kind : α → Prop} (ensures : errand.Ensures answers yields)
    (h : ∀ a, yields a → kind a) : errand.Ensures answers kind := by
  induction errand with
  | done result =>
      cases result with
      | ok a => exact h a ensures
      | error e => exact ensures
  | cut => exact ensures
  | ask path next ih => exact fun answer within => ih answer (ensures answer within)
  | entry path next ih => exact ensures
  | chunk path data next ih => exact ensures

theorem Ensures.answered {disk : Disk} (ensures : errand.Ensures answers yields)
    (within : ∀ path, answers path (disk path)) :
    ∃ a, errand.answered disk = done (.ok a) ∧ yields a := by
  induction errand with
  | done result =>
      cases result with
      | ok a => exact ⟨a, rfl, ensures⟩
      | error e => exact ensures.elim
  | cut => exact ensures.elim
  | ask path next ih => exact ih (disk path) (ensures (disk path) (within path))
  | entry path next ih => exact ensures.elim
  | chunk path data next ih => exact ensures.elim

end Ensuring

/-! ### What a directory lists -/

abbrev Folders := List (Path × List (String × Node))

def foldersIn (place : Path) (entries : List (String × Node)) : Folders :=
  entries.filterMap fun
    | (name, .directory below) => some (place ++ [name], below)
    | _ => none

theorem foldersAt_eq (top place : Path) (entries : List (String × Node)) :
    foldersAt (top ++ place) entries =
      (foldersIn place entries).map fun folder => top ++ folder.1 := by
  rw [foldersAt, foldersIn, List.map_filterMap]
  congr 1
  funext entry
  obtain ⟨name, node⟩ := entry
  cases node with
  | file content => rfl
  | link target => rfl
  | directory below => exact congrArg some (List.append_assoc top place [name])

theorem mem_foldersIn {place path : Path} {entries below : List (String × Node)} :
    (path, below) ∈ foldersIn place entries ↔
      ∃ name, path = place ++ [name] ∧ (name, .directory below) ∈ entries := by
  rw [foldersIn, List.mem_filterMap]
  constructor
  · rintro ⟨⟨name, node⟩, hmem, hsome⟩
    cases node with
    | file content => cases hsome
    | link target => cases hsome
    | directory inner =>
        cases hsome
        exact ⟨name, rfl, hmem⟩
  · rintro ⟨name, rfl, hmem⟩
    exact ⟨_, hmem, rfl⟩

theorem filesAt_eq (place : Path) (entries : List (String × Node)) :
    filesAt place entries = (Node.ownFiles entries).map fun file => place ++ file.1 := by
  induction entries with
  | nil => rfl
  | cons entry rest ih =>
      obtain ⟨name, node⟩ := entry
      cases node with
      | file content => exact congrArg (List.cons (place ++ [name])) ih
      | link target => exact ih
      | directory below => exact ih

theorem filesAt_append (top place : Path) (entries : List (String × Node)) :
    filesAt (top ++ place) entries = (filesAt place entries).map (top ++ ·) := by
  rw [filesAt_eq, filesAt_eq, List.map_map]
  exact List.map_congr_left fun file _ => List.append_assoc top place file.1

def pathOf (kind : Node.Kind) (place : Path) (line : String × Node.Kind) : Option Path :=
  if line.2 = kind then some (place ++ [line.1]) else none

theorem foldersAt_eq_lines (place : Path) (entries : List (String × Node)) :
    foldersAt place entries = (Node.linesOf entries).filterMap (pathOf .directory place) := by
  rw [foldersAt, Node.linesOf, List.filterMap_map]
  congr 1
  funext entry
  obtain ⟨name, node⟩ := entry
  cases node <;> rfl

theorem filesAt_eq_lines (place : Path) (entries : List (String × Node)) :
    filesAt place entries = (Node.linesOf entries).filterMap (pathOf .file place) := by
  rw [filesAt, Node.linesOf, List.filterMap_map]
  congr 1
  funext entry
  obtain ⟨name, node⟩ := entry
  cases node <;> rfl

section Lines

variable {listed entries : List (String × Node)}
  (lines : (Node.linesOf listed).Perm (Node.linesOf entries)) (place : Path)

include lines

theorem foldersAt_perm : (foldersAt place listed).Perm (foldersAt place entries) := by
  rw [foldersAt_eq_lines, foldersAt_eq_lines]
  exact lines.filterMap _

theorem filesAt_perm : (filesAt place listed).Perm (filesAt place entries) := by
  rw [filesAt_eq_lines, filesAt_eq_lines]
  exact lines.filterMap _

end Lines

/-! ### What lies below directories -/

/-- The files below directories, wherever they lie there. -/
def filesIn (folders : Folders) : List Path :=
  folders.flatMap fun (place, entries) => (Node.filesOf entries).map fun file => place ++ file.1

/-- The number of directories to be read below directories, these included. -/
def readsFor (folders : Folders) : Nat :=
  (folders.map fun folder => Node.folderCountOf folder.2 + 1).sum

theorem filesIn_append (first rest : Folders) :
    filesIn (first ++ rest) = filesIn first ++ filesIn rest := List.flatMap_append

theorem readsFor_append (first rest : Folders) :
    readsFor (first ++ rest) = readsFor first + readsFor rest := by
  rw [readsFor, List.map_append, List.sum_append]
  rfl

theorem filesIn_single (place : Path) (entries : List (String × Node)) :
    (filesIn [(place, entries)]).Perm
      (filesAt place entries ++ filesIn (foldersIn place entries)) := by
  rw [filesIn, List.flatMap_singleton]
  induction entries with
  | nil => exact .nil
  | cons entry more ih =>
      obtain ⟨name, node⟩ := entry
      cases node with
      | file content => exact ih.cons (place ++ [name])
      | link target => exact ih
      | directory below =>
          have hfirst : (Node.filesOf ((name, .directory below) :: more)).map
              (fun file => place ++ file.1) =
              (Node.filesOf below).map (fun file => (place ++ [name]) ++ file.1) ++
                (Node.filesOf more).map fun file => place ++ file.1 := by
            simp [Node.filesOf, Node.files]
          dsimp only at ih ⊢
          rw [hfirst]
          refine (ih.append_left _).trans ?_
          exact List.perm_append_comm_assoc _ (filesAt place more) (filesIn (foldersIn place more))

theorem filesIn_middle (before after : Folders) (place : Path) (entries : List (String × Node)) :
    (filesIn (before ++ (place, entries) :: after)).Perm
      (filesAt place entries ++ filesIn (foldersIn place entries ++ (before ++ after))) := by
  have hmiddle : (filesIn (before ++ (place, entries) :: after)).Perm
      (filesIn [(place, entries)] ++ filesIn (before ++ after)) := by
    rw [← filesIn_append]
    exact List.perm_middle.flatMap_right _
  rw [filesIn_append (foldersIn place entries), ← List.append_assoc]
  exact hmiddle.trans ((filesIn_single place entries).append_right _)

theorem readsFor_middle (before after : Folders) (place : Path) (entries : List (String × Node)) :
    readsFor (before ++ (place, entries) :: after) =
      readsFor (foldersIn place entries ++ (before ++ after)) + 1 := by
  have hbelow : Node.folderCountOf entries = readsFor (foldersIn place entries) := by
    induction entries with
    | nil => rfl
    | cons entry more ih =>
        obtain ⟨name, node⟩ := entry
        rw [Node.folderCountOf, ih]
        cases node with
        | file content => exact Nat.zero_add _
        | link target => exact Nat.zero_add _
        | directory below => rfl
  have hmiddle : readsFor (before ++ (place, entries) :: after) =
      readsFor ((place, entries) :: (before ++ after)) := (List.perm_middle.map _).sum_nat
  have hcons : readsFor ((place, entries) :: (before ++ after)) =
      Node.folderCountOf entries + 1 + readsFor (before ++ after) := rfl
  rw [hmiddle, hcons, hbelow, readsFor_append (foldersIn place entries)]
  omega

/-! ### Exploring -/

theorem explore_nil (recursive : Bool) (reads : Nat) (found : List Path) :
    explore recursive reads [] found = pure found := by
  cases reads <;> rfl

/-- Where a walk stands: the directories pending are some of the tree's, with these entries; the
files below them are those that are missing from the ones found; and reads are left for all. -/
structure Stands (tree : Node) (top : Path) (files : List Path) (reads : Nat)
    (pending found : List Path) (folders : Folders) : Prop where
  perm : pending.Perm (folders.map fun folder => top ++ folder.1)
  lie : ∀ folder ∈ folders, tree.at? folder.1 = some (.directory folder.2)
  enough : readsFor folders ≤ reads
  whole : (found ++ (filesIn folders).map (top ++ ·)).Perm files

namespace Stands

variable {tree : Node} {top : Path} {files found : List Path} {reads : Nat} {folders : Folders}

theorem finished (stands : Stands tree top files reads [] found folders) : found.Perm files := by
  have hwhole := stands.whole
  rw [List.map_eq_nil_iff.1 (List.nil_perm.1 stands.perm), filesIn, List.flatMap_nil, List.map_nil,
    List.append_nil] at hwhole
  exact hwhole

theorem pending_eq_nil {pending : List Path}
    (stands : Stands tree top files 0 pending found folders) : pending = [] := by
  have henough := stands.enough
  cases folders with
  | nil => exact List.perm_nil.1 stands.perm
  | cons folder rest => exact absurd henough (by simp [readsFor])

/-- A directory that is pending is listed, and the walk goes on with the directories and files that
it lists, in whatever order. -/
theorem step (distinct : tree.IsDistinct) {path : Path} {rest : List Path}
    (stands : Stands tree top files (reads + 1) (path :: rest) found folders)
    {answer : Except DiskError Node} (within : Enumerates tree top path answer) :
    ∃ listed more, answer = .ok (.directory listed) ∧
      Stands tree top files reads ((foldersAt path listed).reverse ++ rest)
        (found ++ filesAt path listed) more := by
  obtain ⟨perm, lie, enough, whole⟩ := stands
  obtain ⟨⟨place, entries⟩, hmem, rfl⟩ := List.mem_map.1 (perm.mem_iff.1 List.mem_cons_self)
  -- Nothing is known of the order of those pending, so the one read may be any of the folders.
  obtain ⟨before, after, rfl⟩ := List.append_of_mem hmem
  obtain ⟨hbefore, hall⟩ := List.forall_mem_append.1 lie
  obtain ⟨hplace, hafter⟩ := List.forall_mem_cons.1 hall
  obtain ⟨listed, hanswer, lines⟩ := within place entries rfl hplace
  refine ⟨listed, foldersIn place entries ++ (before ++ after), hanswer, ?_, ?_, ?_, ?_⟩
  · have hrest : rest.Perm ((before ++ after).map fun folder => top ++ folder.1) :=
      (perm.trans (List.perm_middle.map _)).cons_inv
    rw [List.map_append, ← foldersAt_eq]
    exact ((List.reverse_perm _).trans (foldersAt_perm lines _)).append hrest
  · refine List.forall_mem_append.2 ⟨?_, List.forall_mem_append.2 ⟨hbefore, hafter⟩⟩
    rintro ⟨path, below⟩ hlisted
    obtain ⟨name, rfl, hentry⟩ := mem_foldersIn.1 hlisted
    rw [Node.at?_append, hplace, Option.bind_some, Node.at?_directory,
      (lookup_eq_some_iff_mem (distinct.names hplace)).2 hentry, Option.bind_some, Node.at?_nil]
  · rwa [readsFor_middle, Nat.add_le_add_iff_right] at enough
  · refine List.Perm.trans ?_ whole
    rw [List.append_assoc]
    refine List.Perm.append_left found ?_
    refine List.Perm.trans ?_ ((filesIn_middle before after place entries).map _).symm
    rw [List.map_append, ← filesAt_append]
    exact (filesAt_perm lines _).append_right _

end Stands

section Exploring

variable {tree : Node} (distinct : tree.IsDistinct) {top : Path}

include distinct

/-- In whatever order directories are listed, the walk ends and has found all files. -/
theorem ensures_explore {files : List Path} {reads : Nat} {pending found : List Path}
    {folders : Folders} (stands : Stands tree top files reads pending found folders) :
    (explore true reads pending found).Ensures (Enumerates tree top)
      fun result => result.Perm files := by
  induction reads generalizing pending found folders with
  | zero =>
      obtain rfl := stands.pending_eq_nil
      exact stands.finished
  | succ reads ih =>
      cases pending with
      | nil => exact stands.finished
      | cons path rest =>
          intro answer within
          obtain ⟨listed, more, rfl, hstands⟩ := stands.step distinct within
          exact ih hstands

/-- A walk that may read as many directories as there are from its start on ends and has found the
files that a listing has, in whatever order directories are listed. -/
theorem ensures_explore_start {start : Path} {entries : List (String × Node)}
    (leads : tree.at? start = some (.directory entries)) (recursive : Bool) {reads : Nat}
    (enough : (Node.directory entries).folderCount ≤ reads) :
    (explore recursive reads [top ++ start] []).Ensures (Enumerates tree top)
      fun files => files.Perm
        ((Snapshot.found entries recursive).map fun file => top ++ start ++ file.1) := by
  rw [Node.folderCount] at enough
  cases recursive with
  | true =>
      have hstart : Stands tree top
          ((Snapshot.found entries true).map fun file => top ++ start ++ file.1) reads
          [top ++ start] [] [(start, entries)] := by
        refine ⟨.refl _, List.forall_mem_singleton.2 leads, enough, .of_eq ?_⟩
        rw [List.nil_append, filesIn, List.flatMap_singleton, List.map_map]
        exact List.map_congr_left fun file _ => (List.append_assoc top start file.1).symm
      exact ensures_explore distinct hstart
  | false =>
      -- The start is the only directory read: none of those that it lists becomes pending.
      obtain ⟨more, rfl⟩ := Nat.exists_eq_add_of_le' (Nat.le_trans (Nat.le_add_left 1 _) enough)
      intro answer within
      obtain ⟨listed, rfl, lines⟩ := within start entries rfl leads
      change (explore false more [] (filesAt (top ++ start) listed)).Ensures _ _
      rw [explore_nil]
      exact (filesAt_perm lines _).trans (.of_eq (filesAt_eq _ _))

end Exploring

theorem inOrder_eq_arranged {top place : Path} {entries : List (String × Node)} {recursive : Bool}
    (distinct : (Node.directory entries).IsDistinct) (names : ∀ name ∈ place, '/' ∉ name.toList)
    {files : List Path} (perm : files.Perm
      ((Snapshot.found entries recursive).map fun file => top ++ place ++ file.1)) :
    inOrder top files = (arranged place entries recursive).map
      fun file => (pathText (place ++ file.1), top ++ place ++ file.1) := by
  let entry (file : Path × Content) := (pathText (place ++ file.1), top ++ place ++ file.1)
  have hperm : (files.map fun path => (pathText (path.drop top.length), path)).Perm
      ((Snapshot.found entries recursive).map entry) := by
    refine (perm.map _).trans (.of_eq ?_)
    rw [List.map_map]
    refine List.map_congr_left fun file _ => ?_
    simp only [Function.comp_apply, List.append_assoc, List.drop_left, entry]
  have htexts : (((Snapshot.found entries recursive).map entry).map Prod.fst).Nodup := by
    rw [List.map_map]
    exact nodup_texts_found distinct names
  rw [inOrder, mergeSort_eq_of_perm hperm htexts]
  exact (List.map_mergeSort (f := entry) (s := fun a b => decide (a.1 ≤ b.1))
    fun _ _ _ _ => rfl).symm

end Errand

end ManifestRelay.Snapshot
