import Mathlib.Data.String.Basic
import ManifestRelay.Proofs.Outcome
import ManifestRelay.Proofs.Snapshot.Tree
import ManifestRelay.Proofs.Text.ByteOrder
import ManifestRelay.Snapshot.Fetcher

/-!
# Listings of files

A walk offers the files below a directory in the order of the bytes of their
paths.  What it offers is described here without the walk: a listing has the
files that lie below the directory, or directly in it, and no others, each at
the place that its path gives it.
-/

namespace ManifestRelay.Snapshot

open Fetch Metadata

/-! ### Paths as texts -/

theorem splitOn_pathText {path : Path} (nonempty : path ≠ [])
    (names : ∀ name ∈ path, '/' ∉ name.toList) :
    (pathText path).toList.splitOn '/' = path.map String.toList := by
  rw [pathText, String.toList_intercalate]
  refine List.splitOn_intercalate '/' ?_ (by simpa using nonempty)
  intro chars hchars
  obtain ⟨name, hname, rfl⟩ := List.mem_map.1 hchars
  exact names name hname

theorem pathText_injective {first second : Path} (hfirst : first ≠ []) (hsecond : second ≠ [])
    (firstNames : ∀ name ∈ first, '/' ∉ name.toList)
    (secondNames : ∀ name ∈ second, '/' ∉ name.toList)
    (h : pathText first = pathText second) : first = second := by
  have hchars : (pathText first).toList.splitOn '/' = (pathText second).toList.splitOn '/' := by
    rw [h]
  rw [splitOn_pathText hfirst firstNames, splitOn_pathText hsecond secondNames] at hchars
  exact List.map_injective_iff.2 (fun _ _ => String.toList_inj.1) hchars

def pathBytes (path : Path) : List UInt8 := Text.Utf8.encode (pathText path).toList

/-- The files of a tree below a place, or directly in it if the walk does not go deeper. -/
structure IsListing (tree : Node) (place : Path) (recursive : Bool)
    (files : List (Path × List UInt8)) : Prop where
  ascending : files.Pairwise fun a b => pathBytes a.1 < pathBytes b.1
  mem_iff : ∀ path data, (path, data) ∈ files ↔
    tree.at? path = some (.file (.ofBytes data)) ∧ place <+: path ∧
      (recursive = true ∨ path.length = place.length + 1)

theorem IsListing.unique {tree : Node} {place : Path} {recursive : Bool}
    {first second : List (Path × List UInt8)} (hfirst : IsListing tree place recursive first)
    (hsecond : IsListing tree place recursive second) : first = second := by
  have hdistinct : ∀ {files}, IsListing tree place recursive files → files.Nodup := by
    intro files listing
    refine listing.ascending.imp ?_
    rintro a _ hless rfl
    exact List.lt_irrefl _ hless
  have hperm : first.Perm second := by
    refine (List.perm_ext_iff_of_nodup (hdistinct hfirst) (hdistinct hsecond)).2 ?_
    rintro ⟨path, data⟩
    rw [hfirst.mem_iff, hsecond.mem_iff]
  refine hperm.eq_of_pairwise ?_ hfirst.ascending hsecond.ascending
  intro a b _ _ hab hba
  exact absurd hab (List.lt_asymm hba)

theorem sorted_mergeSort {γ : Type} (files : List (String × γ)) :
    (files.mergeSort fun a b => decide (a.1 ≤ b.1)).Pairwise fun a b => a.1 ≤ b.1 := by
  have hsorted : (files.mergeSort fun a b => decide (a.1 ≤ b.1)).Pairwise
      fun a b => decide (a.1 ≤ b.1) = true := by
    refine List.pairwise_mergeSort ?_ ?_ files
    · intro a b c hab hbc
      rw [decide_eq_true_iff] at hab hbc ⊢
      exact le_trans hab hbc
    · intro a b
      rw [Bool.or_eq_true, decide_eq_true_iff, decide_eq_true_iff]
      exact le_total _ _
  exact hsorted.imp of_decide_eq_true

/-- Files in another order are sorted to the same list, if no two paths have one text. -/
theorem mergeSort_eq_of_perm {γ : Type} {first second : List (String × γ)}
    (perm : first.Perm second) (distinct : (second.map Prod.fst).Nodup) :
    (first.mergeSort fun a b => decide (a.1 ≤ b.1)) =
      second.mergeSort fun a b => decide (a.1 ≤ b.1) := by
  have hperm := (List.mergeSort_perm first fun a b => decide (a.1 ≤ b.1)).trans
    (perm.trans (List.mergeSort_perm second fun a b => decide (a.1 ≤ b.1)).symm)
  refine hperm.eq_of_pairwise ?_ (sorted_mergeSort first) (sorted_mergeSort second)
  intro a b ha hb hab hba
  rw [List.mem_mergeSort] at ha hb
  exact List.inj_on_of_nodup_map distinct (perm.mem_iff.1 ha) hb (le_antisymm hab hba)

/-- The files that a walk of a directory finds, with the rest of their paths. -/
def found (entries : List (String × Node)) (recursive : Bool) : List (Path × Content) :=
  if recursive then Node.filesOf entries else Node.ownFiles entries

theorem mem_listFiles {entries : List (String × Node)} {recursive : Bool} {place : Path}
    {text : String} :
    text ∈ (listFiles entries place recursive).map Prod.fst ↔
      ∃ file ∈ found entries recursive, pathText (place ++ file.1) = text := by
  unfold listFiles
  dsimp only
  rw [((List.mergeSort_perm _ _).map Prod.fst).mem_iff, List.map_map, List.mem_map]
  rfl

section Found

variable {entries : List (String × Node)} {recursive : Bool}
  (distinct : (Node.directory entries).IsDistinct)

include distinct

theorem mem_found {path : Path} {content : Content} :
    (path, content) ∈ found entries recursive ↔
      (Node.directory entries).at? path = some (.file content) ∧
        (recursive = true ∨ path.length = 1) := by
  cases recursive with
  | true =>
      have hfiles : (path, content) ∈ (Node.directory entries).files ↔ _ := Node.mem_files distinct
      rw [Node.files] at hfiles
      simp [found, hfiles]
  | false =>
      rw [found, if_neg Bool.false_ne_true, Node.mem_ownFiles]
      constructor
      · rintro ⟨name, rfl, hmem⟩
        refine ⟨?_, .inr rfl⟩
        rw [Node.at?_directory, (lookup_eq_some_iff_mem distinct.own_names).2 hmem]
        rfl
      · rintro ⟨hat, hshort⟩
        obtain ⟨name, rfl⟩ := List.length_eq_one_iff.1 (hshort.resolve_left Bool.false_ne_true)
        rw [Node.at?_directory] at hat
        obtain ⟨child, hlookup, hrest⟩ := Option.bind_eq_some_iff.1 hat
        cases hrest
        exact ⟨name, rfl, mem_of_lookup_eq_some hlookup⟩

theorem nodup_found : ((found entries recursive).map Prod.fst).Nodup := by
  unfold found
  split
  · exact Node.nodup_files distinct
  · exact Node.nodup_ownFiles distinct.own_names

theorem names_of_mem_found {file : Path × Content} (h : file ∈ found entries recursive) :
    file.1 ≠ [] ∧ ∀ name ∈ file.1, '/' ∉ name.toList := by
  have hat := ((mem_found distinct).1 h).1
  refine ⟨?_, distinct.no_slash_of_at? hat⟩
  intro hnil
  rw [hnil, Node.at?_nil] at hat
  cases hat

theorem nodup_texts_found {place : Path} (names : ∀ name ∈ place, '/' ∉ name.toList) :
    ((found entries recursive).map fun file => pathText (place ++ file.1)).Nodup := by
  have hwhole : ∀ path ∈ (found entries recursive).map Prod.fst,
      place ++ path ≠ [] ∧ ∀ name ∈ place ++ path, '/' ∉ name.toList := by
    intro path hpath
    obtain ⟨file, hfile, rfl⟩ := List.mem_map.1 hpath
    obtain ⟨nonempty, hnames⟩ := names_of_mem_found distinct hfile
    exact ⟨fun hnil => nonempty (List.append_eq_nil_iff.1 hnil).2,
      List.forall_mem_append.2 ⟨names, hnames⟩⟩
  have hpaths : ((found entries recursive).map Prod.fst).Nodup := nodup_found distinct
  have htexts := hpaths.map_on (f := fun path => pathText (place ++ path)) fun a ha b hb h =>
    List.append_cancel_left (pathText_injective (hwhole a ha).1 (hwhole b hb).1
      (hwhole a ha).2 (hwhole b hb).2 h)
  rwa [List.map_map] at htexts

theorem ascending_listFiles {place : Path} (names : ∀ name ∈ place, '/' ∉ name.toList) :
    ((listFiles entries place recursive).map Prod.fst).Pairwise (· < ·) := by
  have hdistinct : ((listFiles entries place recursive).map Prod.fst).Nodup := by
    refine ((List.mergeSort_perm _ _).map Prod.fst).nodup_iff.2 ?_
    rw [List.map_map]
    exact nodup_texts_found distinct names
  exact ((List.pairwise_map.2 (sorted_mergeSort _)).and hdistinct).imp fun ⟨hle, hne⟩ =>
    lt_of_le_of_ne hle hne

end Found

/-- The files that a walk of a directory finds, in the order of the texts of their paths. -/
def arranged (place : Path) (entries : List (String × Node)) (recursive : Bool) :
    List (Path × Content) :=
  (found entries recursive).mergeSort fun a b =>
    decide (pathText (place ++ a.1) ≤ pathText (place ++ b.1))

theorem listFiles_eq_arranged (entries : List (String × Node)) (place : Path) (recursive : Bool) :
    listFiles entries place recursive =
      (arranged place entries recursive).map fun file => (pathText (place ++ file.1), file.2) :=
  (List.map_mergeSort (f := fun file : Path × Content => (pathText (place ++ file.1), file.2))
    (s := fun a b => decide (a.1 ≤ b.1)) fun _ _ _ _ => rfl).symm

def filesBelow (place : Path) (entries : List (String × Node)) (recursive : Bool) :
    List (Path × List UInt8) :=
  ((found entries recursive).map fun (path, content) => (place ++ path, content.data)).mergeSort
    fun a b => decide (pathText a.1 ≤ pathText b.1)

theorem filesBelow_eq_arranged (place : Path) (entries : List (String × Node)) (recursive : Bool) :
    filesBelow place entries recursive =
      (arranged place entries recursive).map fun file => (place ++ file.1, file.2.data) :=
  (List.map_mergeSort (f := fun file : Path × Content => (place ++ file.1, file.2.data))
    (s := fun a b => decide (pathText a.1 ≤ pathText b.1)) fun _ _ _ _ => rfl).symm

section Arranged

variable {tree : Node} (distinct : tree.IsDistinct) {place : Path}
  {entries : List (String × Node)} (leads : tree.at? place = some (.directory entries))
  {recursive : Bool}

include distinct leads

theorem mem_arranged {rest : Path} {content : Content} :
    (rest, content) ∈ arranged place entries recursive ↔
      tree.at? (place ++ rest) = some (.file content) ∧
        (recursive = true ∨ (place ++ rest).length = place.length + 1) := by
  rw [arranged, List.mem_mergeSort, mem_found (distinct.of_at? leads), Node.at?_append, leads,
    Option.bind_some, List.length_append, Nat.add_left_cancel_iff]

theorem ascending_arranged : (arranged place entries recursive).Pairwise fun a b =>
    pathBytes (place ++ a.1) < pathBytes (place ++ b.1) := by
  have htexts : ((listFiles entries place recursive).map Prod.fst).Pairwise (· < ·) :=
    ascending_listFiles (distinct.of_at? leads) (distinct.no_slash_of_at? leads)
  rw [listFiles_eq_arranged, List.map_map] at htexts
  exact (List.pairwise_map.1 htexts).imp fun hless => Text.Utf8.encode_lt_encode hless

end Arranged

def offered (files : List (Path × List UInt8)) : List (String × Content) :=
  files.map fun (path, data) => (pathText path, .ofBytes data)

section Below

variable {tree : Node} (plain : tree.IsPlain) {place : Path} {entries : List (String × Node)}
  (leads : tree.at? place = some (.directory entries)) (recursive : Bool)

include plain leads

theorem content_of_mem_arranged {file : Path × Content}
    (h : file ∈ arranged place entries recursive) : file.2 = .ofBytes file.2.data := by
  have hfile := ((mem_arranged plain.isTidy.isDistinct leads).1 h).1
  have hcontent : (Node.file file.2).IsPlain := (plain.of_at? hfile).2
  rwa [Node.IsPlain] at hcontent

theorem listFiles_eq_offered :
    listFiles entries place recursive = offered (filesBelow place entries recursive) := by
  rw [listFiles_eq_arranged, filesBelow_eq_arranged, offered, List.map_map]
  exact List.map_congr_left fun file hfile =>
    congrArg _ (content_of_mem_arranged plain leads recursive hfile)

theorem mem_filesBelow (path : Path) (data : List UInt8) :
    (path, data) ∈ filesBelow place entries recursive ↔
      tree.at? path = some (.file (.ofBytes data)) ∧ place <+: path ∧
        (recursive = true ∨ path.length = place.length + 1) := by
  have distinct := plain.isTidy.isDistinct
  rw [filesBelow_eq_arranged, List.mem_map]
  constructor
  · rintro ⟨⟨rest, content⟩, hmem, hpair⟩
    cases hpair
    obtain ⟨hfile, hdepth⟩ := (mem_arranged distinct leads).1 hmem
    refine ⟨?_, List.prefix_append place rest, hdepth⟩
    rw [← content_of_mem_arranged plain leads recursive hmem]
    exact hfile
  · rintro ⟨hfile, ⟨rest, rfl⟩, hdepth⟩
    exact ⟨(rest, .ofBytes data), (mem_arranged distinct leads).2 ⟨hfile, hdepth⟩, rfl⟩

theorem nodup_filesBelow : ((filesBelow place entries recursive).map Prod.fst).Nodup := by
  refine ((List.mergeSort_perm _ _).map Prod.fst).nodup_iff.2 ?_
  have hfound : ((found entries recursive).map Prod.fst).Nodup :=
    nodup_found (plain.isTidy.isDistinct.of_at? leads)
  have hmap := hfound.map (List.append_right_injective place)
  rwa [List.map_map] at hmap ⊢

theorem names_of_mem_filesBelow {file : Path × List UInt8}
    (h : file ∈ filesBelow place entries recursive) :
    file.1 ≠ [] ∧ ∀ name ∈ file.1, IsFileName name := by
  obtain ⟨path, data⟩ := file
  obtain ⟨hfile, hprefix, -⟩ := (mem_filesBelow plain leads recursive path data).1 h
  refine ⟨?_, (plain.of_at? hfile).1⟩
  rintro rfl
  obtain rfl := List.prefix_nil.1 hprefix
  rw [leads] at hfile
  cases hfile

theorem ascending_filesBelow :
    (filesBelow place entries recursive).Pairwise fun a b => pathBytes a.1 < pathBytes b.1 := by
  rw [filesBelow_eq_arranged, List.pairwise_map]
  exact ascending_arranged plain.isTidy.isDistinct leads

theorem isListing_filesBelow :
    IsListing tree place recursive (filesBelow place entries recursive) where
  ascending := ascending_filesBelow plain leads recursive
  mem_iff := mem_filesBelow plain leads recursive

end Below

/-! ### Walks -/

/-- A tree without links is what a disk has of a commit. -/
structure IsSnapshot (root : Node) (repository : Repository) (commit : String) (tree : Node) :
    Prop where
  lies : ∃ top, treePath repository commit = .ok top ∧ root.find? top = .ok tree
  plain : tree.IsPlain

theorem visit_eq_of_disk {disk : Disk} {repository : Repository} {revision directory : String}
    {top : Path} {tree : Node} {entries : List (String × Node)}
    (lies : treePath repository revision = .ok top) (found : disk top = .ok tree)
    (inside : leaves directory = false)
    (leads : disk (top ++ namesOf directory) = .ok (.directory entries)) (recursive : Bool) :
    visit disk repository revision directory recursive =
      fileWalk (listFiles entries (namesOf directory) recursive) := by
  have htop : present disk top = .ok (some tree) := by rw [present, found]
  have hstart : present disk (top ++ namesOf directory) = .ok (some (.directory entries)) := by
    rw [present, leads]
  have hwalk : visit.start disk repository revision directory recursive =
      .ok (some (listFiles entries ((top ++ namesOf directory).drop top.length) recursive)) := by
    unfold visit.start
    rw [lies]
    change (present disk top >>= _) = _
    rw [htop]
    change (if directory = topName then _ else _) = _
    split
    · next hdirectory =>
      have hnames : namesOf directory = [] := by
        rw [hdirectory]
        decide
      rw [hnames, List.append_nil] at hstart ⊢
      change (present disk top >>= _) = _
      rw [hstart]
      rfl
    · rw [descend, inside]
      change (present disk (top ++ namesOf directory) >>= _) = _
      rw [hstart]
      rfl
  unfold visit
  rw [hwalk, List.drop_left]

/-- A walk of a directory offers the files of its listing. -/
theorem visit_eq_fileWalk {root tree : Node} {repository : Repository}
    {revision directory : String} (snapshot : IsSnapshot root repository revision tree)
    (inside : leaves directory = false) {entries : List (String × Node)}
    (leads : tree.at? (namesOf directory) = some (.directory entries)) (recursive : Bool) :
    visit root.find? repository revision directory recursive =
      fileWalk (offered (filesBelow (namesOf directory) entries recursive)) := by
  obtain ⟨⟨top, lies, found⟩, plain⟩ := snapshot
  have hleads : root.find? (top ++ namesOf directory) = .ok (.directory entries) :=
    Node.find?_append found plain.isTidy leads nofun
  rw [visit_eq_of_disk lies found inside hleads, listFiles_eq_offered plain leads]

end ManifestRelay.Snapshot
