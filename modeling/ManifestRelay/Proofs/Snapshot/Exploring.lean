import Mathlib
import ManifestRelay.Proofs.Snapshot.Enumeration
import ManifestRelay.Proofs.Snapshot.Location

/-!
# Walks that read one directory at a time

A disk that is a tree answers every question about a directory with the tree below it.
The errand of a walk looks only at the names that are listed there and asks for each of
them anew.  It comes to an end after as many directories as there are, and has found the
files that the tree has below the start; so it offers the same files in the same order.
-/

namespace ManifestRelay.Snapshot

open Fetch Metadata Outcome

namespace Node

/-! ### Disks of tidy trees -/

theorem entry?_eq_ok_iff {node child : Node} {name : String} :
    node.entry? name = .ok child ↔ ∃ entries, node = directory entries ∧
      name.utf8ByteSize ≤ maxNameSize ∧ entries.lookup name = some child := by
  unfold entry?
  cases node with
  | file content => simp
  | link target => simp
  | directory entries =>
      dsimp only
      split
      · next hlong => simp [Nat.not_le.2 hlong]
      · next hsize =>
        rw [Nat.not_lt] at hsize
        cases h : entries.lookup name <;> simp [hsize, h]

theorem follow_isTidy {links : Nat} {trail : List Node} {path : Path} {node : Node}
    (tidy : ∀ passed ∈ trail, passed.IsTidy) (h : follow links trail path = .ok node) :
    node.IsTidy := by
  fun_induction follow links trail path with
  | case1 => cases h
  | case2 links node above =>
      cases h
      exact tidy node List.mem_cons_self
  | case3 links name rest node above hskip ih => exact ih tidy h
  | case4 links rest node above hname ih =>
      exact ih (fun passed hpassed => tidy passed (List.mem_cons_of_mem _ hpassed)) h
  | case5 => cases h
  | case6 => cases h
  | case7 => cases h
  | case8 name rest node above hname hup target hentry links hinside ih => exact ih tidy h
  | case9 links name rest node above hname hup child nolink hentry ih =>
      obtain ⟨entries, rfl, -, hlookup⟩ := entry?_eq_ok_iff.1 hentry
      have hnode := tidy _ List.mem_cons_self
      rw [IsTidy] at hnode
      exact ih (List.forall_mem_cons.2 ⟨(hnode.2.of_lookup hlookup).2, tidy⟩) h

theorem IsTidy.of_find? {root node : Node} (tidy : root.IsTidy) {path : Path}
    (h : root.find? path = .ok node) : node.IsTidy := by
  unfold find? at h
  split at h
  · cases h
  · exact follow_isTidy (List.forall_mem_singleton.2 tidy) h

end Node

namespace Errand

/-! ### Exploring -/

theorem enumerates_find? {root : Node} (tidy : root.IsTidy) {start : Path}
    {entries : List (String × Node)} (leads : root.find? start = .ok (.directory entries))
    (path : Path) : Enumerates (.directory entries) start path (root.find? path) := by
  rintro place below rfl hat
  exact ⟨below, Node.find?_append leads (tidy.of_find? leads) hat (Node.directory_ne_link below),
    .refl _⟩

/-- The files of a walk, as reading one directory after another finds them. -/
theorem answered_explore_start {root : Node} (tidy : root.IsTidy) {start : Path}
    {entries : List (String × Node)} (leads : root.find? start = .ok (.directory entries))
    (recursive : Bool) {reads : Nat} (enough : (Node.directory entries).folderCount ≤ reads) :
    ∃ files, (explore recursive reads [start] []).answered root.find? = done (.ok files) ∧
      files.Perm ((Snapshot.found entries recursive).map fun file => start ++ file.1) := by
  have hexplore : (explore recursive reads [start ++ []] []).Ensures
      (Enumerates (.directory entries) start) _ :=
    ensures_explore_start (tidy.of_find? leads).isDistinct (Node.at?_nil _) recursive enough
  rw [List.append_nil] at hexplore
  exact hexplore.answered (enumerates_find? tidy leads)

/-! ### Offering -/

section Offering

variable {disk : Disk}

theorem answered_handOver (path : String) (limit : Int) {rest : Errand Unit} {walk : Walk}
    (same : rest.answered disk = ofWalk walk) (total : Nat) (pieces : List (List UInt8)) :
    (handOver path limit rest total pieces).answered disk =
      ofWalk (pieceWalk path limit walk total pieces) := by
  induction pieces generalizing total with
  | nil => exact same
  | cons piece more ih =>
      rw [handOver, pieceWalk]
      cases checkSize path (total + piece.length) limit with
      | error e => rfl
      | ok fits =>
          refine congrArg (chunk path piece) (funext fun answer => ?_)
          rcases answer with e | _ | _
          · rfl
          · exact ih (total + piece.length)
          · rfl

/-- Files that the disk has are offered and handed over from there as from a listing. -/
theorem answered_offer {files : List (String × Path)} {listed : List (String × Content)}
    (same : List.Forall₂ (fun file entry => file.1 = entry.1 ∧
      disk file.2 = .ok (.file entry.2)) files listed) :
    (offer files).answered disk = ofWalk (fileWalk listed) := by
  induction same with
  | nil => rfl
  | @cons file entry files listed hfirst hrest ih =>
      obtain ⟨path, place⟩ := file
      obtain ⟨text, content⟩ := entry
      obtain ⟨rfl, hcontent⟩ := hfirst
      refine congrArg (Errand.entry path) (funext fun answer => ?_)
      rcases answer with e | _ | limit
      · rfl
      · exact ih
      · change (contents place >>= _).answered disk = _
        rw [answered_bind, answered_contents hcontent, done_ok_bind, answered_bind]
        dsimp only
        cases checkSize path content.measured limit with
        | error e => rfl
        | ok fits => exact answered_handOver path limit ih 0 _

end Offering

theorem forall₂_inOrder {root : Node} (tidy : root.IsTidy) {tree place : Path}
    {entries : List (String × Node)} {recursive : Bool}
    (names : ∀ name ∈ place, '/' ∉ name.toList)
    (leads : root.find? (tree ++ place) = .ok (.directory entries)) {files : List Path}
    (perm : files.Perm
      ((Snapshot.found entries recursive).map fun file => tree ++ place ++ file.1)) :
    List.Forall₂ (fun file entry => file.1 = entry.1 ∧ root.find? file.2 = .ok (.file entry.2))
      (inOrder tree files) (listFiles entries place recursive) := by
  have hdirectory := tidy.of_find? leads
  rw [inOrder_eq_arranged hdirectory.isDistinct names perm, listFiles_eq_arranged,
    List.forall₂_map_left_iff, List.forall₂_map_right_iff, List.forall₂_same]
  intro file hfile
  rw [arranged, List.mem_mergeSort] at hfile
  have hat := ((mem_found hdirectory.isDistinct).1 hfile).1
  exact ⟨rfl, Node.find?_append leads hdirectory hat (Node.file_ne_link file.2)⟩

theorem visit_eq (repository : Repository) (revision directory : String) (recursive : Bool)
    (reads : Nat) : visit repository revision directory recursive reads =
      done (treePath repository revision) >>= fun tree => ask tree fun
        | .error .missing => fail (.refNotFound revision)
        | .error e => fail e.toFetchError
        | .ok _ => done (descend tree directory) >>= fun start => ask start fun
            | .error .missing => pure ()
            | .error e => fail e.toFetchError
            | .ok (.directory _) =>
                explore recursive reads [start] [] >>= fun files => offer (inOrder tree files)
            | .ok _ => fail (.unexpectedEntry directory) := by
  unfold visit
  refine congrArg (done (treePath repository revision) >>= ·) (funext fun tree => ?_)
  refine congrArg (ask tree) (funext fun answer => ?_)
  rcases answer with e | node
  · cases e <;> rfl
  · by_cases htop : directory = topName
    · rw [htop, descend_top]
      rfl
    · dsimp only
      rw [if_neg htop]
      rfl

/-- Where the disk is a tree, the errand of a walk that may read directories enough is the walk. -/
theorem answered_visit {root : Node} (tidy : root.IsTidy) (repository : Repository)
    (revision directory : String) (recursive : Bool) :
    ∃ enough, ∀ reads, enough ≤ reads →
      (visit repository revision directory recursive reads).answered root.find? =
        ofWalk (Snapshot.visit root.find? repository revision directory recursive) := by
  simp only [visit_eq, Snapshot.visit, visit_start_eq]
  rcases treePath repository revision with e | tree
  · exact ⟨0, fun reads _ => rfl⟩
  simp only [done_ok_bind, ok_bind, answered]
  rcases root.find? tree with e | top
  · cases e <;> exact ⟨0, fun reads _ => rfl⟩
  cases hstart : descend tree directory with
  | error e => exact ⟨0, fun reads _ => rfl⟩
  | ok start =>
      simp only [done_ok_bind, ok_bind, answered]
      cases hleads : root.find? start with
      | error e => cases e <;> exact ⟨0, fun reads _ => rfl⟩
      | ok node =>
          cases node with
          | file content => exact ⟨0, fun reads _ => rfl⟩
          | link target => exact ⟨0, fun reads _ => rfl⟩
          | directory entries =>
              obtain ⟨inside, rfl⟩ := descend_eq_ok_iff.1 hstart
              refine ⟨(Node.directory entries).folderCount, fun reads enough => ?_⟩
              obtain ⟨files, hfiles, hperm⟩ := answered_explore_start tidy hleads recursive enough
              dsimp only
              rw [answered_bind, hfiles, done_ok_bind, List.drop_left]
              exact answered_offer (forall₂_inOrder tidy
                (fun _ => no_slash_of_mem_namesOf) hleads hperm)

end Errand

end ManifestRelay.Snapshot
