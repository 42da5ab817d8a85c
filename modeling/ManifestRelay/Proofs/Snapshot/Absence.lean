import Mathlib
import ManifestRelay.Proofs.Snapshot.Handover
import ManifestRelay.Proofs.Snapshot.Location

/-!
# Prefixes that lead nowhere

A path that leads nowhere in a tree stops at the last node that it leads to, which has
nothing of the next name.  The disk tells a directory, where the name is missing, from
a file, below which there are no names.  A walk takes only the missing name for the
absence of its directory, and ends well without a call; below a file it fails.  Fetching
takes both for the absence of the file.
-/

namespace ManifestRelay.Snapshot

open Fetch Metadata Outcome

namespace Node

/-- A path leads to a node and no further, for the node has nothing of the next name. -/
def StopsAt (tree : Node) (path : Path) (node : Node) (name : String) : Prop :=
  ∃ before after, path = before ++ name :: after ∧ tree.at? before = some node ∧
    node.at? [name] = none

theorem exists_stopsAt {tree : Node} {path : Path} (nowhere : tree.at? path = none) :
    ∃ node name, tree.StopsAt path node name := by
  induction path generalizing tree with
  | nil =>
      rw [at?] at nowhere
      cases nowhere
  | cons name rest ih =>
      cases hnext : tree.at? [name] with
      | none => exact ⟨tree, name, [], rest, rfl, by rw [at?], hnext⟩
      | some child =>
          have hrest : child.at? rest = none := by
            rwa [← List.singleton_append, at?_append, hnext, Option.bind_some] at nowhere
          obtain ⟨node, other, before, after, rfl, hleads, hnothing⟩ := ih hrest
          refine ⟨node, other, name :: before, after, rfl, ?_, hnothing⟩
          rw [← List.singleton_append, at?_append, hnext, Option.bind_some, hleads]

section Stopped

variable {tree node : Node} {path : Path} {name : String} {e : DiskError}

/-- Where a path stops, it is refused with what the node says of the next name. -/
theorem follow_of_stopsAt {links : Nat} {above : List Node} (tidy : tree.IsTidy)
    (stops : tree.StopsAt path node name) (nolink : ∀ target, node ≠ link target)
    (down : ∀ name ∈ path, name ≠ "" ∧ name ≠ "." ∧ name ≠ "..")
    (refused : node.entry? name = .error e) : follow links (tree :: above) path = .error e := by
  obtain ⟨before, after, rfl, hleads, -⟩ := stops
  have hbefore : follow links (tree :: above) before = .ok node := follow_of_at? tidy hleads nolink
  obtain ⟨left, trail, hrest⟩ := follow_append hbefore
  obtain ⟨hfull, hdot, hup⟩ := down name (by simp)
  rw [hrest, follow, if_neg (by simp [hfull, hdot]), if_neg hup, refused]

theorem find?_of_null {root : Node} {place : Path} (null : ∃ name ∈ path, '\x00' ∈ name.toList) :
    root.find? (place ++ path) = .error .nullByte := by
  obtain ⟨name, hname, hnull⟩ := null
  unfold find?
  apply if_pos
  rw [List.any_eq_true]
  refine ⟨name, List.mem_append_right place hname, ?_⟩
  rw [String.contains_char_eq, decide_eq_true_iff]
  exact hnull

theorem find?_of_stopsAt {root : Node} {place : Path} (found : root.find? place = .ok tree)
    (tidy : tree.IsTidy) (stops : tree.StopsAt path node name)
    (nolink : ∀ target, node ≠ link target)
    (down : ∀ name ∈ path, name ≠ "" ∧ name ≠ "." ∧ name ≠ "..")
    (nonull : ∀ name ∈ path, '\x00' ∉ name.toList) (refused : node.entry? name = .error e) :
    root.find? (place ++ path) = .error e := by
  unfold find? at found ⊢
  have hpath : (path.any fun name => name.contains '\x00') = false := by
    rw [List.any_eq_false]
    intro name hname
    rw [String.contains_char_eq, decide_eq_true_iff]
    exact nonull name hname
  rw [List.any_append, hpath, Bool.or_false]
  split at found
  · cases found
  · next hplace =>
    rw [if_neg hplace]
    obtain ⟨left, above, hrest⟩ := follow_append found
    rw [hrest]
    exact follow_of_stopsAt tidy stops nolink down refused

end Stopped

theorem entry?_of_at?_eq_none {entries : List (String × Node)} {name : String}
    (nothing : (directory entries).at? [name] = none) :
    entry? (directory entries) name =
      .error (if maxNameSize < name.utf8ByteSize then .nameTooLong else .missing) := by
  have hlookup : entries.lookup name = none := by
    rw [at?_directory] at nothing
    cases h : entries.lookup name with
    | none => rfl
    | some child =>
        rw [h, Option.bind_some, at?] at nothing
        cases nothing
  unfold entry?
  dsimp only
  rw [hlookup]
  split <;> rfl

end Node

/-- However a walk is watched, it makes no call and ends with this result. -/
def EndsAtOnce (walk : Walk) (result : Except FetchError Unit) : Prop :=
  ∀ (σ : Type) (visitor : Visitor (StateM σ)) (s : σ), visitor.watch walk s = ([], result)

theorem EndsAtOnce.unique {walk : Walk} {first second : Except FetchError Unit}
    (hfirst : EndsAtOnce walk first) (hsecond : EndsAtOnce walk second) : first = second := by
  have hsame := (hfirst Unit ⟨fun _ => pure .skip, fun _ _ => pure false⟩ ()).symm.trans
    (hsecond Unit _ ())
  exact (Prod.mk.inj hsame).2

/-- A walk of a directory that the disk refuses makes no call; it ends well if the directory is
missing. -/
theorem endsAtOnce_of_refused {disk : Disk} {repository : Repository}
    {revision directory : String} {top : Path} {tree : Node} {e : DiskError}
    (lies : treePath repository revision = .ok top) (found : disk top = .ok tree)
    (inside : leaves directory = false) (refused : disk (top ++ namesOf directory) = .error e)
    (recursive : Bool) : EndsAtOnce (visit disk repository revision directory recursive)
      (if e = .missing then .ok () else .error e.toFetchError) := by
  intro σ visitor s
  unfold visit
  rw [visit_start_eq, lies, ok_bind, found]
  dsimp only
  rw [descend_eq_ok_iff.2 ⟨inside, rfl⟩, ok_bind, refused]
  cases e <;> rfl

theorem fetchFile_of_absent {disk : Disk} {repository : Repository} {revision path : String}
    {top : Path} {e : DiskError} (lies : treePath repository revision = .ok top)
    (inside : leaves path = false) (refused : disk (top ++ namesOf path) = .error e)
    (absent : e.isAbsence = true) (limit : Int) :
    fetchFile disk repository revision path limit = .ok none := by
  unfold fetchFile
  rw [lies]
  change (descend top path >>= _) = _
  rw [descend_eq_ok_iff.2 ⟨inside, rfl⟩]
  simp only [bind, Except.bind, refused, absent, if_true]
  rfl

section Nowhere

variable {root tree : Node} {top path : Path} (found : root.find? top = .ok tree)
  (plain : tree.IsPlain) (down : ∀ name ∈ path, name ≠ "" ∧ name ≠ "." ∧ name ≠ "..")

include found plain down

theorem find?_below_file (nonull : ∀ name ∈ path, '\x00' ∉ name.toList) {content : Content}
    {name : String} (stops : tree.StopsAt path (.file content) name) :
    root.find? (top ++ path) = .error .notDirectory :=
  Node.find?_of_stopsAt found plain.isTidy stops (Node.file_ne_link content) down nonull rfl

theorem find?_not_in_directory (nonull : ∀ name ∈ path, '\x00' ∉ name.toList)
    {entries : List (String × Node)} {name : String}
    (stops : tree.StopsAt path (.directory entries) name) : root.find? (top ++ path) =
      .error (if maxNameSize < name.utf8ByteSize then .nameTooLong else .missing) := by
  apply Node.find?_of_stopsAt found plain.isTidy stops (Node.directory_ne_link entries) down nonull
  obtain ⟨-, -, -, -, hnothing⟩ := stops
  exact Node.entry?_of_at?_eq_none hnothing

/-- What leads nowhere is refused, and as missing exactly where a directory might have it. -/
theorem find?_nowhere (nowhere : tree.at? path = none) :
    ∃ e, root.find? (top ++ path) = .error e ∧
      (e = .missing ↔ (∀ name ∈ path, '\x00' ∉ name.toList) ∧
        ∃ entries name, tree.StopsAt path (.directory entries) name ∧
          name.utf8ByteSize ≤ maxNameSize) := by
  have hmissing : ∀ {e}, root.find? (top ++ path) = .error e →
      ((∀ name ∈ path, '\x00' ∉ name.toList) ∧ ∃ entries name,
        tree.StopsAt path (.directory entries) name ∧ name.utf8ByteSize ≤ maxNameSize) →
      e = .missing := by
    rintro e refused ⟨nonull, entries, name, stops, hsize⟩
    rw [find?_not_in_directory found plain down nonull stops, if_neg (Nat.not_lt.2 hsize)] at refused
    exact (Except.error.inj refused).symm
  by_cases nonull : ∀ name ∈ path, '\x00' ∉ name.toList
  · obtain ⟨node, name, stops⟩ := Node.exists_stopsAt nowhere
    cases node with
    | file content =>
        have refused := find?_below_file found plain down nonull stops
        exact ⟨_, refused, nofun, hmissing refused⟩
    | link target =>
        obtain ⟨before, after, -, hleads, -⟩ := stops
        have hlink := (plain.of_at? hleads).2
        rw [Node.IsPlain] at hlink
        exact hlink.elim
    | directory entries =>
        have refused := find?_not_in_directory found plain down nonull stops
        refine ⟨_, refused, fun h => ⟨nonull, entries, name, stops, ?_⟩, hmissing refused⟩
        by_contra hlong
        rw [if_pos (Nat.not_le.1 hlong)] at h
        cases h
  · have refused : root.find? (top ++ path) = .error .nullByte := by
      apply Node.find?_of_null
      simpa using nonull
    exact ⟨_, refused, nofun, hmissing refused⟩

end Nowhere

/-- A walk of a directory that a tree does not have makes no call.  It ends well exactly if the
path stops at a directory, at a name that files can have; where it stops at a file, the walk fails,
though fetching finds that there is no file. -/
theorem visit_nowhere_iff {root tree : Node} {repository : Repository}
    {revision directory : String} (snapshot : IsSnapshot root repository revision tree)
    (inside : leaves directory = false) (nowhere : tree.at? (namesOf directory) = none)
    (recursive : Bool) :
    (∃ result, EndsAtOnce (visit root.find? repository revision directory recursive) result) ∧
    (EndsAtOnce (visit root.find? repository revision directory recursive) (.ok ()) ↔
      (∀ name ∈ namesOf directory, '\x00' ∉ name.toList) ∧
        ∃ entries name, tree.StopsAt (namesOf directory) (.directory entries) name ∧
          name.utf8ByteSize ≤ maxNameSize) ∧
    ∀ content name, tree.StopsAt (namesOf directory) (.file content) name →
      (∀ name ∈ namesOf directory, '\x00' ∉ name.toList) →
      EndsAtOnce (visit root.find? repository revision directory recursive)
          (.error DiskError.notDirectory.toFetchError) ∧
        ∀ limit, fetchFile root.find? repository revision directory limit = .ok none := by
  obtain ⟨⟨top, lies, found⟩, plain⟩ := snapshot
  have down : ∀ name ∈ namesOf directory, name ≠ "" ∧ name ≠ "." ∧ name ≠ ".." :=
    fun _ hname => goes_down_of_mem_namesOf inside hname
  obtain ⟨e, refused, hmissing⟩ := find?_nowhere found plain down nowhere
  have hends := endsAtOnce_of_refused lies found inside refused recursive
  refine ⟨⟨_, hends⟩, ?_, ?_⟩
  · rw [← hmissing]
    constructor
    · intro hwell
      by_contra hother
      have hresult := hwell.unique hends
      rw [if_neg hother] at hresult
      cases hresult
    · intro h
      rwa [if_pos h] at hends
  · intro content name stops nonull
    have below := find?_below_file found plain down nonull stops
    exact ⟨endsAtOnce_of_refused lies found inside below recursive,
      fetchFile_of_absent lies inside below rfl⟩

/-- Below a directory that is not there, nothing is offered. -/
theorem visit_nowhere_in_top :
    IsSnapshot (Single.root [97]) Single.repository "c1" (Single.tree [97]) ∧
      leaves "b/c" = false ∧ (Single.tree [97]).at? (namesOf "b/c") = none ∧
      EndsAtOnce (visit (Single.root [97]).find? Single.repository "c1" "b/c" true) (.ok ()) := by
  have hinside : leaves "b/c" = false := by cbv
  have hnowhere : (Single.tree [97]).at? (namesOf "b/c") = none := by cbv
  refine ⟨Single.isSnapshot [97], hinside, hnowhere, ?_⟩
  have hnames : namesOf "b/c" = ["b", "c"] := by cbv
  apply (visit_nowhere_iff (Single.isSnapshot [97]) hinside hnowhere true).2.1.2
  rw [hnames]
  refine ⟨by decide, _, "b", ⟨[], ["c"], rfl, by rw [Node.at?]; rfl, by cbv⟩, by decide⟩

/-- Below a file a walk fails, though the file that would be there is fetched as nothing. -/
theorem visit_below_file_fails :
    IsSnapshot (Single.root [97]) Single.repository "c1" (Single.tree [97]) ∧
      leaves "a.yaml/b" = false ∧ (Single.tree [97]).at? (namesOf "a.yaml/b") = none ∧
      Single.taker.watch (visit (Single.root [97]).find? Single.repository "c1" "a.yaml/b" true) () =
        ([], .error (.io "Not a directory (os error 20)")) ∧
      fetchFile (Single.root [97]).find? Single.repository "c1" "a.yaml/b" 10 = .ok none := by
  exact ⟨Single.isSnapshot [97], by cbv, by cbv, by cbv, by cbv⟩

end ManifestRelay.Snapshot
