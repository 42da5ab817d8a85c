import Mathlib.Data.List.Pairwise
import ManifestRelay.Glob.Scope
import ManifestRelay.Proofs.Snapshot.Listing
import ManifestRelay.Proofs.Turn.Admission

/-!
# The files that globs select

A glob selects files of a tree by their paths alone: whichever files it visits
and whichever of them it selects is told here without a walk.  What a budget
allows is told of all globs of a turn together.
-/

namespace ManifestRelay.Turn

open Glob Snapshot

/-! ### Selected files -/

/-- Whether a file lies in a directory whose name starts with a dot. -/
def inDotDirectory (path : Path) : Bool :=
  path.dropLast.any fun name => name.toList.head? == some '.'

def plainGlob (glob : String) : String := String.ofList (withoutSlash glob.toList)

def selects (glob : String) (path : Path) : Bool :=
  !inDotDirectory path &&
    match Matcher.ofGlob (plainGlob glob) with
    | .ok matcher => matcher.matchesPath (pathText path)
    | .error _ => false

def LeadsInto (glob : String) (tree : Node) : Prop :=
  leaves (Scope.ofGlob glob).directory = false ∧
    ∃ entries, tree.at? (namesOf (Scope.ofGlob glob).directory) = some (.directory entries)

def visited (tree : Node) (glob : String) : List (Path × List UInt8) :=
  match tree.at? (namesOf (Scope.ofGlob glob).directory) with
  | some (.directory entries) =>
      filesBelow (namesOf (Scope.ofGlob glob).directory) entries (Scope.ofGlob glob).recursive
  | _ => []

def selected (tree : Node) (glob : String) : List (Path × List UInt8) :=
  (visited tree glob).filter fun (path, _) => selects glob path

/-- A budget allows globs to select what they select. -/
structure Budget.Allows (budget : Budget) (tree : Node) (globs : List String) : Prop where
  count : (globs.flatMap (visited tree)).length ≤ budget.fileCount
  disjoint : ∀ glob ∈ globs, ∀ other ∈ globs, glob ≠ other →
    ∀ file ∈ selected tree glob, ∀ same ∈ selected tree other, file.1 ≠ same.1
  each : ∀ glob ∈ globs, ∀ file ∈ selected tree glob, file.2.length ≤ budget.fileSize
  total : ((globs.flatMap (selected tree)).flatMap Prod.snd).length ≤ budget.totalSize

theorem isHidden_pathText {path : Path} (nonempty : path ≠ [])
    (names : ∀ name ∈ path, IsFileName name) : isHidden (pathText path) = inDotDirectory path := by
  rw [isHidden, components, splitOn_pathText nonempty fun name hname => (names name hname).no_slash,
    ← List.map_dropLast, List.any_map, inDotDirectory, Bool.eq_iff_iff, List.any_eq_true,
    List.any_eq_true]
  refine exists_congr fun name => and_congr_right fun hname => ?_
  have hdot : name.toList ≠ ['.'] := fun h =>
    (names name (List.dropLast_subset path hname)).ne_dot (String.toList_inj.1 h)
  simp [isHiddenName, hdot]

theorem selects_withMatcher {s : Selection} {glob : String} {matcher : Matcher}
    (compiled : Matcher.ofGlob (plainGlob glob) = .ok matcher) {path : Path} (nonempty : path ≠ [])
    (names : ∀ name ∈ path, IsFileName name) :
    (s.withMatcher matcher).selects (pathText path) = selects glob path := by
  unfold selects
  rw [compiled, Selection.selects, isHidden_pathText nonempty names]
  rfl

/-! ### Listings -/

section Listings

variable {tree : Node} (plain : tree.IsPlain) {glob : String}

include plain

theorem isListing_visited (leads : LeadsInto glob tree) :
    IsListing tree (namesOf (Scope.ofGlob glob).directory) (Scope.ofGlob glob).recursive
      (visited tree glob) := by
  obtain ⟨-, entries, hat⟩ := leads
  unfold visited
  rw [hat]
  exact isListing_filesBelow plain hat (Scope.ofGlob glob).recursive

theorem nodup_visited : ((visited tree glob).map Prod.fst).Nodup := by
  unfold visited
  split
  · next entries hat => exact nodup_filesBelow plain hat (Scope.ofGlob glob).recursive
  · exact List.nodup_nil

theorem names_of_mem_visited {file : Path × List UInt8} (h : file ∈ visited tree glob) :
    file.1 ≠ [] ∧ ∀ name ∈ file.1, IsFileName name := by
  unfold visited at h
  split at h
  · next entries hat => exact names_of_mem_filesBelow plain hat (Scope.ofGlob glob).recursive h
  · cases h

theorem nodup_selected : ((selected tree glob).map Prod.fst).Nodup :=
  (nodup_visited plain).sublist (List.filter_sublist.map Prod.fst)

theorem names_of_mem_selected {file : Path × List UInt8} (h : file ∈ selected tree glob) :
    file.1 ≠ [] ∧ ∀ name ∈ file.1, IsFileName name :=
  names_of_mem_visited plain (List.mem_of_mem_filter h)

/-- No file is selected twice exactly if no two globs select the same file. -/
theorem nodup_flatMap_selected {globs : List String} (distinct : globs.Nodup) :
    ((globs.flatMap (selected tree)).map Prod.fst).Nodup ↔
      ∀ glob ∈ globs, ∀ other ∈ globs, glob ≠ other →
        ∀ file ∈ selected tree glob, ∀ same ∈ selected tree other, file.1 ≠ same.1 := by
  rw [List.map_flatMap, List.nodup_flatMap,
    and_iff_right fun glob _ => nodup_selected plain]
  constructor
  · intro h glob hglob other hother hne file hfile same hsame hpath
    have hsymm : Std.Symm (Function.onFun List.Disjoint fun glob =>
        (selected tree glob).map Prod.fst) := ⟨fun _ _ => List.disjoint_symm⟩
    have hdisjoint := h.forall hglob hother hne
    exact hdisjoint (List.mem_map_of_mem hfile) (hpath ▸ List.mem_map_of_mem hsame)
  · intro h
    refine distinct.pairwise_of_forall_ne fun glob hglob other hother hne path hfirst hsecond => ?_
    obtain ⟨file, hfile, rfl⟩ := List.mem_map.1 hfirst
    obtain ⟨same, hsame, hpath⟩ := List.mem_map.1 hsecond
    exact h glob hglob other hother hne file hfile same hsame hpath.symm

end Listings

/-! ### Offers -/

def offersOf (tree : Node) (glob : String) : List Offer :=
  (visited tree glob).map fun (path, data) => ⟨pathText path, data, selects glob path⟩

def Offer.ofFile (file : Path × List UInt8) : Offer := ⟨pathText file.1, file.2, true⟩

theorem wantedOf_offersOf (tree : Node) (glob : String) :
    wantedOf (offersOf tree glob) = (selected tree glob).map Offer.ofFile := by
  rw [wantedOf, offersOf, List.filter_map]
  refine List.map_congr_left fun file hfile => ?_
  have hselects : selects glob file.1 = true := (List.mem_filter.1 hfile).2
  dsimp only
  rw [hselects, Offer.ofFile]

theorem wantedOf_flatMap (tree : Node) (globs : List String) :
    wantedOf (globs.flatMap (offersOf tree)) = (globs.flatMap (selected tree)).map Offer.ofFile := by
  rw [wantedOf, List.filter_flatMap, List.map_flatMap]
  exact congrArg (globs.flatMap ·) (funext (wantedOf_offersOf tree))

theorem nodup_wantedOf_flatMap {tree : Node} (plain : tree.IsPlain) (globs : List String) :
    ((wantedOf (globs.flatMap (offersOf tree))).map Offer.path).Nodup ↔
      ((globs.flatMap (selected tree)).map Prod.fst).Nodup := by
  have hpaths : (wantedOf (globs.flatMap (offersOf tree))).map Offer.path =
      ((globs.flatMap (selected tree)).map Prod.fst).map pathText := by
    rw [wantedOf_flatMap, List.map_map, List.map_map]
    rfl
  have hnames : ∀ path ∈ (globs.flatMap (selected tree)).map Prod.fst,
      path ≠ [] ∧ ∀ name ∈ path, '/' ∉ name.toList := by
    intro path hpath
    obtain ⟨file, hfile, rfl⟩ := List.mem_map.1 hpath
    obtain ⟨glob, -, hselected⟩ := List.mem_flatMap.1 hfile
    obtain ⟨nonempty, names⟩ := names_of_mem_selected plain hselected
    exact ⟨nonempty, fun name hname => (names name hname).no_slash⟩
  rw [hpaths]
  constructor
  · exact List.Nodup.of_map pathText
  · refine List.Nodup.map_on fun first hfirst second hsecond => ?_
    obtain ⟨firstNonempty, firstNames⟩ := hnames first hfirst
    obtain ⟨secondNonempty, secondNames⟩ := hnames second hsecond
    exact pathText_injective firstNonempty secondNonempty firstNames secondNames

/-- The limits of a fresh selection hold of all offers exactly if the budget allows the globs. -/
theorem fits_iff_allows {tree : Node} (plain : tree.IsPlain) {globs : List String}
    (distinct : globs.Nodup) (budget : Budget) :
    (Selection.ofBudget budget).Fits (globs.flatMap (offersOf tree)) ↔ budget.Allows tree globs := by
  have hcount : (Selection.ofBudget budget).count + (globs.flatMap (offersOf tree)).length =
      (globs.flatMap (visited tree)).length := by
    rw [List.length_flatMap, List.length_flatMap, Selection.ofBudget, Nat.zero_add]
    simp only [offersOf, List.length_map]
  have hdisjoint := (nodup_wantedOf_flatMap plain globs).trans (nodup_flatMap_selected plain distinct)
  have heach : (∀ o ∈ wantedOf (globs.flatMap (offersOf tree)),
      (o.data.length : Int) ≤ budget.fileSize) ↔
      ∀ glob ∈ globs, ∀ file ∈ selected tree glob, (file.2.length : Int) ≤ budget.fileSize := by
    rw [wantedOf_flatMap, List.forall_mem_map, List.forall_mem_flatMap]
    rfl
  have htotal : totalSize (wantedOf (globs.flatMap (offersOf tree))) =
      ((globs.flatMap (selected tree)).flatMap Prod.snd).length := by
    rw [wantedOf_flatMap, totalSize, List.flatMap_map]
    rfl
  constructor
  · rintro ⟨count, unshared, -, each, total⟩
    rw [hcount] at count
    rw [htotal] at total
    exact ⟨count, hdisjoint.1 unshared, heach.1 each, total⟩
  · rintro ⟨count, disjoint, each, total⟩
    rw [← hcount] at count
    rw [← htotal] at total
    refine ⟨count, hdisjoint.2 disjoint, ?_, heach.2 each, total⟩
    intro o _ htaken
    cases htaken

end ManifestRelay.Turn
