import ManifestRelay.Proofs.Lookup
import ManifestRelay.Snapshot.Disk

/-!
# Trees

In a tree a path of names leads through directories to one node at most.  The disk
finds that node there, wherever in a larger tree the tree lies, unless it is a link,
which stands for something else.  The files of the tree are those that some path
leads to.
-/

namespace ManifestRelay.Snapshot

structure IsFileName (name : String) : Prop where
  ne_empty : name ≠ ""
  ne_dot : name ≠ "."
  ne_dots : name ≠ ".."
  no_slash : '/' ∉ name.toList
  no_null : '\x00' ∉ name.toList
  size : name.utf8ByteSize ≤ maxNameSize

instance (name : String) : Decidable (IsFileName name) :=
  decidable_of_iff (name ≠ "" ∧ name ≠ "." ∧ name ≠ ".." ∧ '/' ∉ name.toList ∧
    '\x00' ∉ name.toList ∧ name.utf8ByteSize ≤ maxNameSize)
    ⟨fun ⟨full, dot, dots, slash, null, size⟩ => ⟨full, dot, dots, slash, null, size⟩,
      fun ⟨full, dot, dots, slash, null, size⟩ => ⟨full, dot, dots, slash, null, size⟩⟩

namespace Node

mutual

/-- A tree as disks have it: no directory has two entries of one name, and all names are those of
files. -/
def IsTidy : Node → Prop
  | file _ => True
  | link _ => True
  | directory entries => (entries.map Prod.fst).Nodup ∧ AreTidy entries

def AreTidy : List (String × Node) → Prop
  | [] => True
  | (name, node) :: rest => IsFileName name ∧ node.IsTidy ∧ AreTidy rest

end

mutual

/-- A tree of directories and of files that nobody writes to. -/
def IsPlain : Node → Prop
  | file content => content = .ofBytes content.data
  | link _ => False
  | directory entries => (entries.map Prod.fst).Nodup ∧ ArePlain entries

def ArePlain : List (String × Node) → Prop
  | [] => True
  | (name, node) :: rest => IsFileName name ∧ node.IsPlain ∧ ArePlain rest

end

def at? : Node → Path → Option Node
  | node, [] => some node
  | directory entries, name :: rest => (entries.lookup name).bind fun child => child.at? rest
  | _, _ :: _ => none

theorem at?_nil (node : Node) : node.at? [] = some node := by
  rw [at?]

theorem at?_directory (entries : List (String × Node)) (name : String) (rest : Path) :
    (directory entries).at? (name :: rest) =
      (entries.lookup name).bind fun child => child.at? rest := rfl

theorem at?_append (node : Node) (first rest : Path) :
    node.at? (first ++ rest) = (node.at? first).bind fun middle => middle.at? rest := by
  induction first generalizing node with
  | nil => rw [List.nil_append, at?, Option.bind_some]
  | cons name first ih =>
      cases node with
      | file content => rfl
      | link target => rfl
      | directory entries =>
          rw [List.cons_append, at?_directory, at?_directory, Option.bind_assoc]
          exact congrArg _ (funext ih)

theorem areTidy_iff {entries : List (String × Node)} :
    AreTidy entries ↔ ∀ entry ∈ entries, IsFileName entry.1 ∧ entry.2.IsTidy := by
  induction entries with
  | nil => simp [AreTidy]
  | cons entry rest ih =>
      rw [AreTidy, ih, List.forall_mem_cons, and_assoc]

theorem arePlain_iff {entries : List (String × Node)} :
    ArePlain entries ↔ ∀ entry ∈ entries, IsFileName entry.1 ∧ entry.2.IsPlain := by
  induction entries with
  | nil => simp [ArePlain]
  | cons entry rest ih =>
      rw [ArePlain, ih, List.forall_mem_cons, and_assoc]

theorem AreTidy.of_lookup {entries : List (String × Node)} (tidy : AreTidy entries)
    {name : String} {node : Node} (h : entries.lookup name = some node) :
    IsFileName name ∧ node.IsTidy :=
  areTidy_iff.1 tidy (name, node) (mem_of_lookup_eq_some h)

theorem ArePlain.of_lookup {entries : List (String × Node)} (plain : ArePlain entries)
    {name : String} {node : Node} (h : entries.lookup name = some node) :
    IsFileName name ∧ node.IsPlain :=
  arePlain_iff.1 plain (name, node) (mem_of_lookup_eq_some h)

mutual

theorem IsPlain.isTidy {node : Node} (plain : node.IsPlain) : node.IsTidy := by
  match node with
  | file content => rw [IsTidy]; trivial
  | link target => rw [IsTidy]; trivial
  | directory entries =>
      rw [IsPlain] at plain
      rw [IsTidy]
      exact ⟨plain.1, plain.2.areTidy⟩

theorem ArePlain.areTidy {entries : List (String × Node)} (plain : ArePlain entries) :
    AreTidy entries := by
  match entries with
  | [] => rw [AreTidy]; trivial
  | (name, node) :: rest =>
      rw [ArePlain] at plain
      rw [AreTidy]
      exact ⟨plain.1, plain.2.1.isTidy, plain.2.2.areTidy⟩

end

/-- What directories pass on to their entries, paths pass on to the nodes that they lead to. -/
theorem passed_on {p : Node → Prop}
    (down : ∀ {entries : List (String × Node)} {name : String} {child : Node},
      p (directory entries) → entries.lookup name = some child → IsFileName name ∧ p child)
    {node child : Node} (start : p node) {path : Path} (h : node.at? path = some child) :
    (∀ name ∈ path, IsFileName name) ∧ p child := by
  induction path generalizing node with
  | nil =>
      rw [at?] at h
      obtain rfl := Option.some.inj h
      exact ⟨nofun, start⟩
  | cons name rest ih =>
      cases node with
      | file content => cases h
      | link target => cases h
      | directory entries =>
          rw [at?_directory] at h
          obtain ⟨next, hlookup, hrest⟩ := Option.bind_eq_some_iff.1 h
          obtain ⟨hname, hnext⟩ := down start hlookup
          obtain ⟨hnames, hchild⟩ := ih hnext hrest
          exact ⟨List.forall_mem_cons.2 ⟨hname, hnames⟩, hchild⟩

theorem IsTidy.of_at? {node child : Node} (tidy : node.IsTidy) {path : Path}
    (h : node.at? path = some child) : (∀ name ∈ path, IsFileName name) ∧ child.IsTidy := by
  refine passed_on (p := IsTidy) (fun {entries name child} hentries hlookup => ?_) tidy h
  rw [IsTidy] at hentries
  exact hentries.2.of_lookup hlookup

theorem IsPlain.of_at? {node child : Node} (plain : node.IsPlain) {path : Path}
    (h : node.at? path = some child) : (∀ name ∈ path, IsFileName name) ∧ child.IsPlain := by
  refine passed_on (p := IsPlain) (fun {entries name child} hentries hlookup => ?_) plain h
  rw [IsPlain] at hentries
  exact hentries.2.of_lookup hlookup

/-- Paths of a tree are told apart by their texts: no directory has two entries of one name, and no
name has a slash. -/
structure IsDistinct (tree : Node) : Prop where
  names : ∀ {path : Path} {entries : List (String × Node)},
    tree.at? path = some (directory entries) → (entries.map Prod.fst).Nodup
  no_slash : ∀ {path : Path} {entries : List (String × Node)},
    tree.at? path = some (directory entries) → ∀ entry ∈ entries, '/' ∉ entry.1.toList

theorem IsTidy.isDistinct {tree : Node} (tidy : tree.IsTidy) : tree.IsDistinct where
  names h := by
    have hdirectory := (tidy.of_at? h).2
    rw [IsTidy] at hdirectory
    exact hdirectory.1
  no_slash h entry hentry := by
    have hdirectory := (tidy.of_at? h).2
    rw [IsTidy] at hdirectory
    exact (areTidy_iff.1 hdirectory.2 entry hentry).1.no_slash

theorem AreTidy.isDistinct {entries : List (String × Node)} (tidy : AreTidy entries)
    (names : (entries.map Prod.fst).Nodup) : (directory entries).IsDistinct := by
  refine IsTidy.isDistinct ?_
  rw [IsTidy]
  exact ⟨names, tidy⟩

namespace IsDistinct

theorem of_at? {tree child : Node} (distinct : tree.IsDistinct) {place : Path}
    (h : tree.at? place = some child) : child.IsDistinct where
  names hchild := distinct.names (by rw [at?_append, h, Option.bind_some]; exact hchild)
  no_slash hchild := distinct.no_slash (by rw [at?_append, h, Option.bind_some]; exact hchild)

theorem own_names {entries : List (String × Node)} (distinct : (directory entries).IsDistinct) :
    (entries.map Prod.fst).Nodup :=
  distinct.names (at?_nil _)

theorem of_mem {entries : List (String × Node)} (distinct : (directory entries).IsDistinct)
    {name : String} {child : Node} (h : (name, child) ∈ entries) : child.IsDistinct := by
  have hat : (directory entries).at? [name] = some child := by
    rw [at?_directory, (lookup_eq_some_iff_mem distinct.own_names).2 h, Option.bind_some, at?_nil]
  exact distinct.of_at? hat

theorem no_slash_of_at? {tree child : Node} (distinct : tree.IsDistinct) {path : Path}
    (h : tree.at? path = some child) : ∀ name ∈ path, '/' ∉ name.toList := by
  induction path generalizing tree with
  | nil => exact List.forall_mem_nil _
  | cons name rest ih =>
      cases tree with
      | file content => cases h
      | link target => cases h
      | directory entries =>
          rw [at?_directory] at h
          obtain ⟨next, hlookup, hrest⟩ := Option.bind_eq_some_iff.1 h
          have hmem := mem_of_lookup_eq_some hlookup
          exact List.forall_mem_cons.2
            ⟨distinct.no_slash (at?_nil _) _ hmem, ih (distinct.of_mem hmem) hrest⟩

end IsDistinct

theorem file_ne_link (content : Content) (target : String) : file content ≠ link target := by
  intro h
  cases h

theorem directory_ne_link (entries : List (String × Node)) (target : String) :
    directory entries ≠ link target := by
  intro h
  cases h

theorem ne_link_of_at?_cons {node child : Node} {name : String} {rest : Path}
    (h : node.at? (name :: rest) = some child) (target : String) : node ≠ link target := by
  rintro rfl
  cases h

/-! ### What the disk finds -/

theorem follow_skip {links : Nat} {node : Node} {above : List Node} {name : String} (rest : Path)
    (h : (name = "" || name = ".") = true) :
    follow links (node :: above) (name :: rest) = follow links (node :: above) rest := by
  rw [follow, if_pos h]

theorem follow_up {links : Nat} {node : Node} {above : List Node} (rest : Path) :
    follow links (node :: above) (".." :: rest) = follow links above rest := by
  rw [follow, if_neg (by decide), if_pos rfl]

theorem follow_child {links : Nat} {node child : Node} {above : List Node} {name : String}
    (rest : Path) (h : ¬ (name = "" || name = ".") = true) (hup : name ≠ "..")
    (hentry : node.entry? name = .ok child) (nolink : ∀ target, child ≠ link target) :
    follow links (node :: above) (name :: rest) = follow links (child :: node :: above) rest := by
  rw [follow, if_neg h, if_neg hup, hentry]
  cases child with
  | file content => rfl
  | link target => exact absurd rfl (nolink target)
  | directory entries => rfl

theorem follow_append {links : Nat} {trail : List Node} {first : Path} {node : Node}
    (h : follow links trail first = .ok node) :
    ∃ left above, ∀ rest,
      follow links trail (first ++ rest) = follow left (node :: above) rest := by
  fun_induction follow links trail first with
  | case1 => cases h
  | case2 links node above =>
      cases h
      exact ⟨links, above, fun rest => rfl⟩
  | case3 links name rest node above hskip ih =>
      obtain ⟨left, last, hrest⟩ := ih h
      exact ⟨left, last, fun more => (follow_skip _ hskip).trans (hrest more)⟩
  | case4 links rest node above hname ih =>
      obtain ⟨left, last, hrest⟩ := ih h
      exact ⟨left, last, fun more => (follow_up _).trans (hrest more)⟩
  | case5 => cases h
  | case6 => cases h
  | case7 => cases h
  | case8 name rest node above hname hup target hentry links hinside ih =>
      obtain ⟨left, last, hrest⟩ := ih h
      refine ⟨left, last, fun more => ?_⟩
      rw [← hrest more, List.cons_append, follow, if_neg hname, if_neg hup, hentry]
      simp only [hinside, Bool.false_eq_true, if_false, List.append_assoc]
  | case9 links name rest node above hname hup child nolink hentry ih =>
      obtain ⟨left, last, hrest⟩ := ih h
      exact ⟨left, last, fun more => (follow_child _ hname hup hentry nolink).trans (hrest more)⟩

theorem follow_of_at? {links : Nat} {node child : Node} {above : List Node} {path : Path}
    (tidy : node.IsTidy) (h : node.at? path = some child) (nolink : ∀ target, child ≠ link target) :
    follow links (node :: above) path = .ok child := by
  induction path generalizing node above with
  | nil =>
      rw [at?] at h
      obtain rfl := Option.some.inj h
      rw [follow]
  | cons name rest ih =>
      cases node with
      | file content => cases h
      | link target => cases h
      | directory entries =>
          rw [at?_directory] at h
          obtain ⟨next, hlookup, hrest⟩ := Option.bind_eq_some_iff.1 h
          rw [IsTidy] at tidy
          obtain ⟨hname, hnext⟩ := tidy.2.of_lookup hlookup
          have hentry : entry? (directory entries) name = .ok next := by
            unfold entry?
            dsimp only
            rw [if_neg (Nat.not_lt.2 hname.size), hlookup]
          have hpass : ∀ target, next ≠ link target := by
            cases rest with
            | nil =>
                rw [at?] at hrest
                obtain rfl := Option.some.inj hrest
                exact nolink
            | cons => exact ne_link_of_at?_cons hrest
          rw [follow_child rest (by simp [hname.ne_empty, hname.ne_dot]) hname.ne_dots hentry hpass]
          exact ih hnext hrest

/-- The disk finds what a tree has, wherever the tree lies. -/
theorem find?_append {root tree child : Node} {place path : Path}
    (found : root.find? place = .ok tree) (tidy : tree.IsTidy) (h : tree.at? path = some child)
    (nolink : ∀ target, child ≠ link target) : root.find? (place ++ path) = .ok child := by
  unfold find? at found ⊢
  have hnull : (path.any fun name => name.contains '\x00') = false := by
    rw [List.any_eq_false]
    intro name hname
    rw [String.contains_char_eq, decide_eq_true_iff]
    exact ((tidy.of_at? h).1 name hname).no_null
  rw [List.any_append, hnull, Bool.or_false]
  split at found
  · cases found
  · next hplace =>
    rw [if_neg hplace]
    obtain ⟨left, above, hrest⟩ := follow_append found
    rw [hrest path]
    exact follow_of_at? tidy h nolink

theorem directory_of_find?_append {root tree : Node} {place path : Path}
    {entries : List (String × Node)} (found : root.find? place = .ok tree)
    (names : ∀ name ∈ path, name ≠ "" ∧ name ≠ "." ∧ name ≠ "..")
    (leads : root.find? (place ++ path) = .ok (directory entries)) :
    ∃ all, tree = directory all := by
  cases path with
  | nil =>
      rw [List.append_nil, found] at leads
      exact ⟨entries, Except.ok.inj leads⟩
  | cons name rest =>
      obtain ⟨hfull, hdot, hup⟩ := names name List.mem_cons_self
      unfold find? at found leads
      split at found
      · cases found
      split at leads
      · cases leads
      obtain ⟨left, above, hrest⟩ := follow_append found
      rw [hrest, follow, if_neg (by simp [hfull, hdot]), if_neg hup] at leads
      cases tree with
      | file content => cases leads
      | link target => cases leads
      | directory all => exact ⟨all, rfl⟩

/-! ### Files -/

theorem mem_filesOf {entries : List (String × Node)} {path : Path} {content : Content} :
    (path, content) ∈ filesOf entries ↔ ∃ name rest child,
      path = name :: rest ∧ (name, child) ∈ entries ∧ (rest, content) ∈ child.files := by
  induction entries with
  | nil => simp [filesOf]
  | cons entry more ih =>
      obtain ⟨other, node⟩ := entry
      rw [filesOf, List.mem_append, ih]
      constructor
      · rintro (hfirst | ⟨name, rest, child, hpath, hmem, hrest⟩)
        · obtain ⟨⟨rest, data⟩, hmem, hpair⟩ := List.mem_map.1 hfirst
          cases hpair
          exact ⟨other, rest, node, rfl, List.mem_cons_self, hmem⟩
        · exact ⟨name, rest, child, hpath, List.mem_cons_of_mem _ hmem, hrest⟩
      · rintro ⟨name, rest, child, rfl, hmem, hrest⟩
        rcases List.mem_cons.1 hmem with hfirst | hlater
        · cases hfirst
          exact .inl (List.mem_map.2 ⟨(rest, content), hrest, rfl⟩)
        · exact .inr ⟨name, rest, child, rfl, hlater, hrest⟩

theorem mem_files {node : Node} (distinct : node.IsDistinct) {path : Path} {content : Content} :
    (path, content) ∈ node.files ↔ node.at? path = some (file content) := by
  induction path generalizing node with
  | nil =>
      cases node with
      | file data => simp [files, at?, eq_comm]
      | link target => simp [files, at?]
      | directory entries => simp [files, at?, mem_filesOf]
  | cons name rest ih =>
      cases node with
      | file data => simp [files, at?]
      | link target => simp [files, at?]
      | directory entries =>
          rw [files, mem_filesOf, at?_directory, Option.bind_eq_some_iff]
          constructor
          · rintro ⟨_, _, child, hpath, hmem, hrest⟩
            cases hpath
            have hlookup := (lookup_eq_some_iff_mem distinct.own_names).2 hmem
            exact ⟨child, hlookup, (ih (distinct.of_mem hmem)).1 hrest⟩
          · rintro ⟨child, hlookup, hrest⟩
            have hmem := mem_of_lookup_eq_some hlookup
            exact ⟨name, rest, child, rfl, hmem, (ih (distinct.of_mem hmem)).2 hrest⟩

theorem mem_ownFiles {entries : List (String × Node)} {path : Path} {content : Content} :
    (path, content) ∈ ownFiles entries ↔ ∃ name, path = [name] ∧ (name, file content) ∈ entries := by
  fun_induction ownFiles entries with
  | case1 => simp
  | case2 name data rest ih =>
      rw [List.mem_cons, ih]
      constructor
      · rintro (hfirst | ⟨other, hpath, hmem⟩)
        · cases hfirst
          exact ⟨name, rfl, List.mem_cons_self⟩
        · exact ⟨other, hpath, List.mem_cons_of_mem _ hmem⟩
      · rintro ⟨other, rfl, hmem⟩
        rcases List.mem_cons.1 hmem with hfirst | hlater
        · cases hfirst
          exact .inl rfl
        · exact .inr ⟨other, rfl, hlater⟩
  | case3 entry rest nofile ih =>
      obtain ⟨other, node⟩ := entry
      rw [ih]
      constructor
      · rintro ⟨name, hpath, hmem⟩
        exact ⟨name, hpath, List.mem_cons_of_mem _ hmem⟩
      · rintro ⟨name, rfl, hmem⟩
        rcases List.mem_cons.1 hmem with hfirst | hlater
        · cases hfirst
          exact absurd rfl (nofile other content)
        · exact ⟨name, rfl, hlater⟩

mutual

theorem nodup_files {node : Node} (distinct : node.IsDistinct) :
    (node.files.map Prod.fst).Nodup := by
  match node with
  | file data => exact List.nodup_singleton []
  | link target => exact List.nodup_nil
  | directory entries =>
      exact nodup_filesOf distinct.own_names fun entry hentry => distinct.of_mem hentry

theorem nodup_filesOf {entries : List (String × Node)} (names : (entries.map Prod.fst).Nodup)
    (distinct : ∀ entry ∈ entries, entry.2.IsDistinct) :
    ((filesOf entries).map Prod.fst).Nodup := by
  match entries with
  | [] => exact List.nodup_nil
  | (name, node) :: rest =>
      obtain ⟨hnode, hrest⟩ := List.forall_mem_cons.1 distinct
      rw [List.map_cons, List.nodup_cons] at names
      rw [filesOf, List.map_append, List.map_map, List.nodup_append]
      refine ⟨?_, nodup_filesOf names.2 hrest, ?_⟩
      · have hfiles := (nodup_files hnode).map (fun _ _ h => (List.cons.inj h).2 :
          Function.Injective (List.cons name))
        rwa [List.map_map] at hfiles
      · rintro _ hfirst _ hlater rfl
        obtain ⟨file, -, hpath⟩ := List.mem_map.1 hfirst
        obtain ⟨⟨path, content⟩, hmem, rfl⟩ := List.mem_map.1 hlater
        obtain ⟨other, more, child, rfl, hentry, -⟩ := mem_filesOf.1 hmem
        cases hpath
        exact names.1 (List.mem_map.2 ⟨_, hentry, rfl⟩)

end

theorem sublist_ownFiles (entries : List (String × Node)) :
    ((ownFiles entries).map Prod.fst).Sublist (entries.map fun entry => [entry.1]) := by
  fun_induction ownFiles entries with
  | case1 => exact .slnil
  | case2 name data rest ih => exact ih.cons_cons [name]
  | case3 entry rest nofile ih => exact ih.cons [entry.1]

theorem nodup_ownFiles {entries : List (String × Node)}
    (distinct : (entries.map Prod.fst).Nodup) : ((ownFiles entries).map Prod.fst).Nodup := by
  refine .sublist (sublist_ownFiles entries) ?_
  have hmap := distinct.map (f := fun name => [name]) fun _ _ h => (List.cons.inj h).1
  rwa [List.map_map] at hmap

end Node

end ManifestRelay.Snapshot
