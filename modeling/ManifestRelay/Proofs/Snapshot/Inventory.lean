import Mathlib
import ManifestRelay.Proofs.Snapshot.Enumeration

/-!
# Inventories

The files below a directory of a tree have one inventory: their paths in the order of
the bytes of these, each path once.  A listing is this inventory whichever order a tree
has its entries in, and so is what a walk makes of the answers of a disk that lists
every directory in an order of its own.
-/

namespace ManifestRelay.Snapshot

open Errand

/-- The files of a tree below a place, or directly in it if the walk does not go deeper, by their
paths in the order of the bytes of these. -/
structure IsInventory (tree : Node) (place : Path) (recursive : Bool) (files : List Path) :
    Prop where
  ascending : files.Pairwise fun a b => pathBytes a < pathBytes b
  mem_iff : ∀ path, path ∈ files ↔
    (∃ content, tree.at? path = some (.file content)) ∧ place <+: path ∧
      (recursive = true ∨ path.length = place.length + 1)

theorem isInventory_arranged {tree : Node} (distinct : tree.IsDistinct) {place : Path}
    {entries : List (String × Node)} (leads : tree.at? place = some (.directory entries))
    (recursive : Bool) :
    IsInventory tree place recursive
      ((arranged place entries recursive).map fun file => place ++ file.1) where
  ascending := List.pairwise_map.2 (ascending_arranged distinct leads)
  mem_iff path := by
    rw [List.mem_map]
    constructor
    · rintro ⟨⟨rest, content⟩, hmem, rfl⟩
      obtain ⟨hfile, hdepth⟩ := (mem_arranged distinct leads).1 hmem
      exact ⟨⟨content, hfile⟩, List.prefix_append place rest, hdepth⟩
    · rintro ⟨⟨content, hfile⟩, ⟨rest, rfl⟩, hdepth⟩
      exact ⟨(rest, content), (mem_arranged distinct leads).2 ⟨hfile, hdepth⟩, rfl⟩

/-! ### Trees that are rearranged -/

/-- Each directory of one tree is a directory of another one too, and lists there the same entries
in one order or another. -/
def IsRearranged (tree other : Node) : Prop :=
  ∀ place entries, tree.at? place = some (.directory entries) →
    ∃ listed, other.at? place = some (.directory listed) ∧
      (Node.linesOf listed).Perm (Node.linesOf entries)

theorem IsRearranged.refl (tree : Node) : IsRearranged tree tree :=
  fun _ entries h => ⟨entries, h, .refl _⟩

theorem IsRearranged.of_entries {entries listed : List (String × Node)}
    (lines : (Node.linesOf listed).Perm (Node.linesOf entries))
    (below : ∀ name inner, (name, .directory inner) ∈ entries → ∃ others,
      listed.lookup name = some (.directory others) ∧
        IsRearranged (.directory inner) (.directory others)) :
    IsRearranged (.directory entries) (.directory listed) := by
  intro place inner h
  cases place with
  | nil =>
      cases h
      exact ⟨listed, Node.at?_nil _, lines⟩
  | cons name rest =>
      rw [Node.at?_directory] at h
      obtain ⟨child, hlookup, hchild⟩ := Option.bind_eq_some_iff.1 h
      cases child with
      | file content => cases rest <;> cases hchild
      | link target => cases rest <;> cases hchild
      | directory first =>
          obtain ⟨others, hothers, same⟩ := below name first (mem_of_lookup_eq_some hlookup)
          rw [Node.at?_directory, hothers, Option.bind_some]
          exact same rest inner hchild

/-- The disk that answers with what a tree has at a path. -/
def diskOf (tree : Node) : Disk := fun path => (tree.at? path).elim (.error .missing) .ok

theorem map_fst_linesOf (entries : List (String × Node)) :
    (Node.linesOf entries).map Prod.fst = entries.map Prod.fst := by
  rw [Node.linesOf, List.map_map]
  rfl

namespace IsRearranged

variable {tree other : Node} (rearranged : IsRearranged tree other)

include rearranged

theorem enumerates (path : Path) : Enumerates tree [] path (diskOf other path) := by
  rintro place entries hpath hplace
  obtain ⟨listed, hlisted, lines⟩ := rearranged place entries hplace
  rw [List.nil_append] at hpath
  refine ⟨listed, ?_, lines⟩
  rw [hpath, diskOf, hlisted, Option.elim_some]

theorem isDistinct (distinct : other.IsDistinct) : tree.IsDistinct where
  names h := by
    obtain ⟨listed, hlisted, lines⟩ := rearranged _ _ h
    have hnames := (lines.map Prod.fst).nodup_iff.1 (by
      rw [map_fst_linesOf]
      exact distinct.names hlisted)
    rwa [map_fst_linesOf] at hnames
  no_slash h entry hentry := by
    obtain ⟨listed, hlisted, lines⟩ := rearranged _ _ h
    have hname : entry.1 ∈ (Node.linesOf listed).map Prod.fst := by
      rw [(lines.map Prod.fst).mem_iff, map_fst_linesOf]
      exact List.mem_map_of_mem hentry
    rw [map_fst_linesOf] at hname
    obtain ⟨same, hsame, heq⟩ := List.mem_map.1 hname
    rw [← heq]
    exact distinct.no_slash hlisted same hsame

/-- Both trees have the same files below a place: exploring either is the same errand, and one disk
answers it for both. -/
theorem found_perm (distinct : other.IsDistinct) {place : Path}
    {entries listed : List (String × Node)} (leads : tree.at? place = some (.directory entries))
    (leadsOther : other.at? place = some (.directory listed)) (recursive : Bool) :
    ((found entries recursive).map fun file => place ++ file.1).Perm
      ((found listed recursive).map fun file => place ++ file.1) := by
  let reads := max (Node.directory entries).folderCount (Node.directory listed).folderCount
  have hexplore : (explore recursive reads [[] ++ place] []).Ensures (Enumerates tree []) _ :=
    ensures_explore_start (rearranged.isDistinct distinct) leads recursive (Nat.le_max_left _ _)
  have hother : (explore recursive reads [[] ++ place] []).Ensures (Enumerates other []) _ :=
    ensures_explore_start distinct leadsOther recursive (Nat.le_max_right _ _)
  obtain ⟨first, hfirst, hentries⟩ := hexplore.answered rearranged.enumerates
  obtain ⟨second, hsecond, hlisted⟩ := hother.answered (IsRearranged.refl other).enumerates
  rw [hfirst] at hsecond
  cases hsecond
  exact hentries.symm.trans hlisted

theorem texts_listFiles (distinct : other.IsDistinct) {place : Path}
    {entries listed : List (String × Node)} (leads : tree.at? place = some (.directory entries))
    (leadsOther : other.at? place = some (.directory listed)) (recursive : Bool) :
    (listFiles entries place recursive).map Prod.fst =
      (listFiles listed place recursive).map Prod.fst := by
  have names := distinct.no_slash_of_at? leadsOther
  have hfound := rearranged.found_perm distinct leads leadsOther recursive
  refine (ascending_listFiles ((rearranged.isDistinct distinct).of_at? leads) names).eq_of_mem_iff
    (ascending_listFiles (distinct.of_at? leadsOther) names) fun text => ?_
  have hmem := (hfound.map pathText).mem_iff (a := text)
  simp only [List.map_map, List.mem_map, Function.comp_apply] at hmem
  rw [mem_listFiles, mem_listFiles, hmem]

end IsRearranged

/-! ### One inventory for every order -/

/-- In whatever order a tree has its entries, the listing of a directory is the inventory of its
place; and however a disk lists directories, a walk ends with this inventory, after no more reads
than there are directories from its start on. -/
theorem listing_ignores_enumeration {tree : Node} (distinct : tree.IsDistinct) {start : Path}
    {entries : List (String × Node)} (leads : tree.at? start = some (.directory entries))
    (recursive : Bool) :
    ∃ files, IsInventory tree start recursive files ∧
      (∀ other listed, IsRearranged other tree → other.at? start = some (.directory listed) →
        (listFiles listed start recursive).map Prod.fst = files.map pathText) ∧
      ∀ top reads, (Node.directory entries).folderCount ≤ reads →
        (explore recursive reads [top ++ start] []).Ensures (Enumerates tree top) fun found =>
          inOrder top found = files.map fun path => (pathText path, top ++ path) := by
  refine ⟨_, isInventory_arranged distinct leads recursive, ?_, ?_⟩
  · intro other listed rearranged leadsOther
    rw [rearranged.texts_listFiles distinct leadsOther leads, listFiles_eq_arranged, List.map_map,
      List.map_map]
    rfl
  · intro top reads enough
    refine (ensures_explore_start distinct leads recursive enough).imp fun found hfound => ?_
    rw [inOrder_eq_arranged (distinct.of_at? leads) (distinct.no_slash_of_at? leads) hfound,
      List.map_map]
    exact List.map_congr_left fun file _ => congrArg _ (List.append_assoc top start file.1)

namespace Jumbled

/-- Entries beside a directory whose name begins the name of one of them. -/
def entries : List (String × Node) :=
  [("b", .directory [("a.yaml", .file (.ofBytes [97])), ("x", .link "../b-c")]),
    ("b-c", .file (.ofBytes [98])), ("a.yaml", .file (.ofBytes [99]))]

def sorted : List (String × Node) :=
  [("a.yaml", .file (.ofBytes [99])), ("b-c", .file (.ofBytes [98])),
    ("b", .directory [("x", .link "../b-c"), ("a.yaml", .file (.ofBytes [97]))])]

theorem isDistinct : (Node.directory entries).IsDistinct := by
  refine Node.IsTidy.isDistinct ?_
  have hnames : ∀ name ∈ ["b", "a.yaml", "x", "b-c"], IsFileName name := by decide
  simp only [List.forall_mem_cons] at hnames
  simp [entries, Node.IsTidy, Node.AreTidy, hnames]

theorem isRearranged : IsRearranged (.directory sorted) (.directory entries) := by
  refine .of_entries (by decide) fun name inner h => ?_
  have hinner : name = "b" ∧
      inner = [("x", .link "../b-c"), ("a.yaml", .file (.ofBytes [97]))] := by
    simpa [sorted] using h
  obtain ⟨rfl, rfl⟩ := hinner
  exact ⟨_, rfl, .of_entries (by decide) (by simp)⟩

theorem listFiles_sorted : listFiles sorted [] true =
    [("a.yaml", .ofBytes [99]), ("b-c", .ofBytes [98]), ("b/a.yaml", .ofBytes [97])] :=
  List.mergeSort_of_pairwise (by decide)

end Jumbled

/-- A tree in two orders, and disks that list it in any, have one inventory. -/
theorem listing_ignores_enumeration_jumbled :
    (Node.directory Jumbled.entries).IsDistinct ∧
      (Node.directory Jumbled.entries).at? [] = some (.directory Jumbled.entries) ∧
      IsRearranged (.directory Jumbled.sorted) (.directory Jumbled.entries) ∧
      ∃ files : List Path, files.map pathText = ["a.yaml", "b-c", "b/a.yaml"] ∧
        (listFiles Jumbled.entries [] true).map Prod.fst = files.map pathText ∧
        (explore true 2 [["top"]] []).Ensures (Enumerates (.directory Jumbled.entries) ["top"])
          fun found =>
            inOrder ["top"] found = files.map fun path => (pathText path, "top" :: path) := by
  obtain ⟨files, -, hlists, hexplores⟩ :=
    listing_ignores_enumeration Jumbled.isDistinct (Node.at?_nil _) true
  have hsorted := hlists _ _ Jumbled.isRearranged (Node.at?_nil _)
  have hentries := hlists _ _ (.refl _) (Node.at?_nil _)
  rw [Jumbled.listFiles_sorted] at hsorted
  exact ⟨Jumbled.isDistinct, Node.at?_nil _, Jumbled.isRearranged, files, hsorted.symm, hentries,
    hexplores ["top"] 2 (by decide)⟩

end ManifestRelay.Snapshot
