import Mathlib
import ManifestRelay.Proofs.Snapshot.Listing
import ManifestRelay.Proofs.Snapshot.Location

/-!
# What a prefix leaves of a walk

The walk of a directory looks the directory up by its path, and looking up follows
links.  The walk of the whole tree goes from entry to entry, and passes links by.
The two agree on what lies below the directory exactly if the path leads there
through directories alone, or if there is no file to disagree on.
-/

namespace ManifestRelay.Snapshot

open Fetch Metadata

/-! ### Paths below a directory -/

def liesBelow (directory path : String) : Bool :=
  (namesOf directory).isEmpty || path.startsWith (pathText (namesOf directory) ++ "/")

/-- A path lies below a directory exactly if it goes on where the names of the directory end. -/
theorem liesBelow_iff {directory : String} {path : Path} (nonempty : path ≠ [])
    (names : ∀ name ∈ path, '/' ∉ name.toList) :
    liesBelow directory (pathText path) = true ↔
      ∃ rest, rest ≠ [] ∧ path = namesOf directory ++ rest := by
  by_cases htop : namesOf directory = []
  · rw [liesBelow, htop, List.isEmpty_nil, Bool.true_or]
    exact ⟨fun _ => ⟨path, nonempty, rfl⟩, fun _ => rfl⟩
  · rw [liesBelow, List.isEmpty_eq_false_iff.2 htop, Bool.false_or, String.startsWith_string_iff]
    constructor
    · rintro ⟨more, hmore⟩
      have hsplit : path.map String.toList =
          (namesOf directory).map String.toList ++ more.splitOn '/' := by
        rw [← splitOn_pathText nonempty names, ← hmore, String.toList_append, List.append_assoc]
        rw [← splitOn_pathText htop fun name => no_slash_of_mem_namesOf]
        exact List.splitOn_append_cons_self _ _
      have hprefix : namesOf directory <+: path :=
        (List.prefix_map_iff_of_injective fun _ _ => String.toList_inj.1).1 ⟨_, hsplit.symm⟩
      obtain ⟨rest, rfl⟩ := hprefix
      refine ⟨rest, ?_, rfl⟩
      rintro rfl
      rw [List.append_nil] at hsplit
      exact List.splitOn_ne_nil '/' more (List.append_right_eq_self.1 hsplit.symm)
    · rintro ⟨rest, hrest, rfl⟩
      refine ⟨(pathText rest).toList, ?_⟩
      unfold pathText
      rw [String.intercalate_append_of_ne_nil htop hrest]
      simp only [String.toList_append]

/-! ### What the two walks list -/

section Listed

variable {directory : String} {all entries : List (String × Node)}

theorem directory_of_at?_append {node : Node} {place rest : Path} {content : Content}
    (nonempty : rest ≠ []) (h : node.at? (place ++ rest) = some (.file content)) :
    ∃ below, node.at? place = some (.directory below) := by
  rw [Node.at?_append] at h
  obtain ⟨middle, hmiddle, hrest⟩ := Option.bind_eq_some_iff.1 h
  obtain ⟨name, more, rfl⟩ := List.exists_cons_of_ne_nil nonempty
  cases middle with
  | file other => cases hrest
  | link target => cases hrest
  | directory below => exact ⟨below, hmiddle⟩

variable (distinct : (all.map Prod.fst).Nodup) (tidy : Node.AreTidy all)

include distinct tidy

theorem mem_filter_liesBelow {text : String} :
    text ∈ ((listFiles all [] true).map Prod.fst).filter (liesBelow directory) ↔
      ∃ rest content, rest ≠ [] ∧
        (Node.directory all).at? (namesOf directory ++ rest) = some (.file content) ∧
        pathText (namesOf directory ++ rest) = text := by
  have htree := tidy.isDistinct distinct
  rw [List.mem_filter, mem_listFiles]
  constructor
  · rintro ⟨⟨⟨path, content⟩, hfile, rfl⟩, hbelow⟩
    obtain ⟨nonempty, names⟩ := names_of_mem_found htree hfile
    obtain ⟨rest, hrest, rfl⟩ := (liesBelow_iff nonempty names).1 hbelow
    exact ⟨rest, content, hrest, ((mem_found htree).1 hfile).1, rfl⟩
  · rintro ⟨rest, content, hrest, hat, rfl⟩
    have hfile : (namesOf directory ++ rest, content) ∈ found all true :=
      (mem_found htree).2 ⟨hat, .inl rfl⟩
    obtain ⟨nonempty, names⟩ := names_of_mem_found htree hfile
    exact ⟨⟨_, hfile, rfl⟩, (liesBelow_iff nonempty names).2 ⟨rest, hrest, rfl⟩⟩

theorem filter_liesBelow_eq_nil
    (nowhere : ∀ below, (Node.directory all).at? (namesOf directory) ≠ some (.directory below)) :
    ((listFiles all [] true).map Prod.fst).filter (liesBelow directory) = [] := by
  refine List.eq_nil_iff_forall_not_mem.2 fun text htext => ?_
  obtain ⟨rest, content, hrest, hat, -⟩ := (mem_filter_liesBelow distinct tidy).1 htext
  obtain ⟨below, hbelow⟩ := directory_of_at?_append hrest hat
  exact nowhere below hbelow

/-- A directory lists what the top lists below it. -/
theorem listFiles_eq_filter
    (leads : (Node.directory all).at? (namesOf directory) = some (.directory entries)) :
    (listFiles entries (namesOf directory) true).map Prod.fst =
      ((listFiles all [] true).map Prod.fst).filter (liesBelow directory) := by
  have htree := tidy.isDistinct distinct
  have below := htree.of_at? leads
  have hlisted : ((listFiles entries (namesOf directory) true).map Prod.fst).Pairwise (· < ·) :=
    ascending_listFiles below fun name => no_slash_of_mem_namesOf
  have hall : ((listFiles all [] true).map Prod.fst).Pairwise (· < ·) :=
    ascending_listFiles htree (List.forall_mem_nil _)
  refine hlisted.eq_of_mem_iff (hall.filter _) fun text => ?_
  rw [mem_filter_liesBelow distinct tidy, mem_listFiles]
  have hat : ∀ rest, (Node.directory all).at? (namesOf directory ++ rest) =
      (Node.directory entries).at? rest := by
    intro rest
    rw [Node.at?_append, leads, Option.bind_some]
  constructor
  · rintro ⟨⟨rest, content⟩, hfile, rfl⟩
    refine ⟨rest, content, (names_of_mem_found below hfile).1, ?_, rfl⟩
    rw [hat]
    exact ((mem_found below).1 hfile).1
  · rintro ⟨rest, content, -, hfile, rfl⟩
    rw [hat] at hfile
    exact ⟨(rest, content), (mem_found below).2 ⟨hfile, .inl rfl⟩, rfl⟩

end Listed

theorem listFiles_eq_nil_iff {entries : List (String × Node)} {place : Path} :
    (listFiles entries place true).map Prod.fst = [] ↔ Node.filesOf entries = [] := by
  unfold listFiles
  dsimp only
  rw [List.map_eq_nil_iff, ← List.length_eq_zero_iff, List.length_mergeSort,
    List.length_eq_zero_iff, List.map_eq_nil_iff, if_pos rfl]

/-! ### What a visitor enters -/

/-- A visitor that never fails and never ends a walk early. -/
structure Patient (σ : Type) where
  entry : String → σ → Decision × σ
  chunk : String → List UInt8 → σ → σ

namespace Patient

variable {σ : Type} (visitor : Patient σ)

def recorded : Visitor (StateM (σ × List String)) where
  entry path := do
    let (s, entered) ← get
    let (decision, s) := visitor.entry path s
    set (s, entered ++ [path])
    return decision
  chunk path data := do
    modify fun (s, entered) => (visitor.chunk path data s, entered)
    return false

/-- Show a walk to the visitor: how the walk ended, and the paths that were offered. -/
def watch (walk : Walk) (s : σ) : Except FetchError Unit × List String :=
  let (result, _, entered) := (walk.drive visitor.recorded).run (s, [])
  (result, entered)

variable {visitor}

theorem run_of_watch {walk : Walk} {s : σ} {result : Except FetchError Unit}
    {entered : List String} (h : visitor.watch walk s = (result, entered)) :
    ∃ t, (walk.drive visitor.recorded).run (s, []) = (result, t, entered) := by
  cases h
  exact ⟨_, rfl⟩

theorem run_entry (path : String) (next : Except FetchError Decision → Walk) (s : σ)
    (entered : List String) :
    ((Walk.entry path next).drive visitor.recorded).run (s, entered) =
      ((next (.ok (visitor.entry path s).1)).drive visitor.recorded).run
        ((visitor.entry path s).2, entered ++ [path]) := rfl

theorem run_chunk (path : String) (data : List UInt8) (next : Except FetchError Bool → Walk)
    (s : σ) (entered : List String) :
    ((Walk.chunk path data next).drive visitor.recorded).run (s, entered) =
      ((next (.ok false)).drive visitor.recorded).run
        (visitor.chunk path data s, entered) := rfl

theorem of_pieceWalk {path : String} {limit : Int} {rest : Walk} {total : Nat}
    {pieces : List (List UInt8)} {s t : σ} {entered seen : List String}
    (h : ((pieceWalk path limit rest total pieces).drive visitor.recorded).run (s, entered) =
      (.ok (), t, seen)) :
    ∃ u, (rest.drive visitor.recorded).run (u, entered) = (.ok (), t, seen) := by
  induction pieces generalizing total s with
  | nil => exact ⟨s, h⟩
  | cons piece more ih =>
      rw [pieceWalk] at h
      split at h
      · cases h
      · rw [run_chunk] at h
        exact ih h

/-- A walk of files that ends well has offered all of them. -/
theorem of_fileWalk {files : List (String × Content)} {s t : σ} {entered seen : List String}
    (h : ((fileWalk files).drive visitor.recorded).run (s, entered) = (.ok (), t, seen)) :
    seen = entered ++ files.map Prod.fst := by
  induction files generalizing s entered with
  | nil =>
      cases h
      rw [List.map_nil, List.append_nil]
  | cons file rest ih =>
      obtain ⟨path, content⟩ := file
      rw [fileWalk, run_entry] at h
      have hrest : ∃ s', ((fileWalk rest).drive visitor.recorded).run (s', entered ++ [path]) =
          (.ok (), t, seen) := by
        cases hdecision : (visitor.entry path s).1 with
        | skip =>
            rw [hdecision] at h
            exact ⟨_, h⟩
        | take limit =>
            rw [hdecision] at h
            dsimp only at h
            split at h
            · cases h
            · exact of_pieceWalk h
      obtain ⟨s', hs'⟩ := hrest
      rw [ih hs', List.append_assoc]
      rfl

theorem entered_visit {disk : Disk} {repository : Repository} {revision directory : String}
    {top : Path} {tree : Node} {entries : List (String × Node)}
    (lies : treePath repository revision = .ok top) (found : disk top = .ok tree)
    (inside : leaves directory = false)
    (leads : disk (top ++ namesOf directory) = .ok (.directory entries)) {recursive : Bool}
    {s : σ} {entered : List String}
    (ends : visitor.watch (visit disk repository revision directory recursive) s =
      (.ok (), entered)) :
    entered = (listFiles entries (namesOf directory) recursive).map Prod.fst := by
  rw [visit_eq_of_disk lies found inside leads] at ends
  obtain ⟨t, hrun⟩ := run_of_watch ends
  rw [of_fileWalk hrun, List.nil_append]

end Patient

/-- A walk with a prefix enters what the walk of the whole tree enters below it, exactly if the
prefix leads to its directory through directories, or if no file lies there. -/
theorem visit_narrows_iff {root tree : Node} {repository : Repository} {top : Path}
    {revision directory : String} {entries : List (String × Node)}
    (lies : treePath repository revision = .ok top)
    (found : root.find? top = .ok tree)
    (tidy : tree.IsTidy)
    (inside : leaves directory = false)
    (leads : root.find? (top ++ namesOf directory) = .ok (.directory entries))
    {σ : Type} {visitor : Patient σ} {s : σ} {narrowed full : List String}
    (narrow : visitor.watch (visit root.find? repository revision directory true) s =
      (.ok (), narrowed))
    (whole : visitor.watch (visit root.find? repository revision topName true) s =
      (.ok (), full)) :
    narrowed = full.filter (liesBelow directory) ↔
      (∃ below, tree.at? (namesOf directory) = some (.directory below)) ∨
        Node.filesOf entries = [] := by
  have hnames : ∀ name ∈ namesOf directory, name ≠ "" ∧ name ≠ "." ∧ name ≠ ".." := by
    intro name hname
    have hkept := (List.mem_filter.1 hname).2
    rw [Bool.and_eq_true, bne_iff_ne, bne_iff_ne] at hkept
    refine ⟨hkept.1, hkept.2, ?_⟩
    rintro rfl
    rw [leaves, Bool.or_eq_false_iff, List.contains_eq_mem, decide_eq_false_iff_not] at inside
    exact inside.2 hname
  obtain ⟨all, rfl⟩ := Node.directory_of_find?_append found hnames leads
  have hall : (all.map Prod.fst).Nodup ∧ Node.AreTidy all := by rwa [Node.IsTidy] at tidy
  have hnone : namesOf topName = [] := by decide
  have htop : root.find? (top ++ namesOf topName) = .ok (.directory all) := by
    rw [hnone, List.append_nil, found]
  have hnarrowed := Patient.entered_visit lies found inside leads narrow
  have hfull := Patient.entered_visit lies found leaves_top htop whole
  rw [hnone] at hfull
  subst hnarrowed hfull
  by_cases hdirectory :
      ∃ below, (Node.directory all).at? (namesOf directory) = some (.directory below)
  · refine iff_of_true ?_ (.inl hdirectory)
    obtain ⟨below, hbelow⟩ := hdirectory
    have hfound := Node.find?_append found tidy hbelow (Node.directory_ne_link below)
    rw [leads] at hfound
    cases hfound
    exact listFiles_eq_filter hall.1 hall.2 hbelow
  · rw [filter_liesBelow_eq_nil hall.1 hall.2 fun below hbelow => hdirectory ⟨below, hbelow⟩,
      listFiles_eq_nil_iff, or_iff_right hdirectory]

namespace Linked

def tree : Node := .directory [("dir", .directory [("a.yaml", .file (.ofBytes [97]))]),
  ("link", .link "dir")]

def root : Node := .directory [("default", .directory [("sample.git", .directory
  [("trees", .directory [("c1", tree)])])])]

def repository : Repository := ⟨"default", "sample.git", "", ""⟩

def taker : Patient Unit where
  entry _ s := (.take 100, s)
  chunk _ _ s := s

theorem tidy : tree.IsTidy := by
  have hnames : ∀ name ∈ ["dir", "link", "a.yaml"], IsFileName name := by decide
  simp only [List.forall_mem_cons] at hnames
  simp [tree, Node.IsTidy, Node.AreTidy, hnames]

theorem watch_top :
    taker.watch (visit root.find? repository "c1" topName true) () = (.ok (), ["dir/a.yaml"]) := by
  cbv

end Linked

/-- A directory that lies beside a link to it is entered once. -/
theorem visit_narrows_dir :
    Linked.taker.watch (visit Linked.root.find? Linked.repository "c1" "dir" true) () =
        (.ok (), ["dir/a.yaml"]) ∧
      ["dir/a.yaml"] = ["dir/a.yaml"].filter (liesBelow "dir") := by
  have hdir : Linked.taker.watch (visit Linked.root.find? Linked.repository "c1" "dir" true) () =
      (.ok (), ["dir/a.yaml"]) := by cbv
  have hlies : treePath Linked.repository "c1" = .ok ["default", "sample.git", "trees", "c1"] := by
    cbv
  have hleads : Linked.root.find? (["default", "sample.git", "trees", "c1"] ++ namesOf "dir") =
      .ok (.directory [("a.yaml", .file (.ofBytes [97]))]) := by cbv
  refine ⟨hdir, ?_⟩
  exact (visit_narrows_iff hlies (by cbv) Linked.tidy (by cbv) hleads hdir Linked.watch_top).2
    (.inl ⟨_, by cbv⟩)

/-- A walk from a link enters files that the walk of the whole tree enters under another path. -/
theorem visit_link_enters_elsewhere :
    leaves "link" = false ∧
      Linked.root.find? ["default", "sample.git", "trees", "c1", "link"] =
        .ok (.directory [("a.yaml", .file (.ofBytes [97]))]) ∧
      Linked.taker.watch (visit Linked.root.find? Linked.repository "c1" "link" true) () =
        (.ok (), ["link/a.yaml"]) ∧
      Linked.taker.watch (visit Linked.root.find? Linked.repository "c1" topName true) () =
        (.ok (), ["dir/a.yaml"]) ∧
      ["link/a.yaml"] ≠ ["dir/a.yaml"].filter (liesBelow "link") := by
  refine ⟨by cbv, by cbv, by cbv, Linked.watch_top, ?_⟩
  have hnone : ["dir/a.yaml"].filter (liesBelow "link") = [] := by cbv
  rw [hnone]
  exact List.cons_ne_nil _ _

end ManifestRelay.Snapshot
