import Mathlib
import ManifestRelay.Proofs.Outcome
import ManifestRelay.Proofs.Snapshot.Location
import ManifestRelay.Snapshot.Fetcher

/-!
# Refs that are taken

The file of a ref says a commit, or refers to another ref whose file says one.  Of the
refs that a name may stand for, the first that has a commit is taken; but all of them are
read before, so polling finds the commit exactly if none of the others is in the way.
-/

namespace ManifestRelay.Snapshot

open Fetch Metadata Outcome

variable {disk : Disk} {place : Path} {ref : String}

/-! ### What files of refs hold -/

/-- The file of a ref is a text, which is this without the blanks at its ends. -/
def Holds (disk : Disk) (place : Path) (ref : String) (value : List Char) : Prop :=
  leaves ref = false ∧ ∃ content text, disk (place ++ namesOf ref) = .ok (.file content) ∧
    Text.Utf8.decode? content.data = some text ∧ Text.trimmed text = value

def IsVoid (disk : Disk) (place : Path) (ref : String) : Prop :=
  leaves ref = false ∧ ∃ e, disk (place ++ namesOf ref) = .error e ∧ e.isAbsence = true

def IsFolder (disk : Disk) (place : Path) (ref : String) : Prop :=
  leaves ref = false ∧ ∃ entries, disk (place ++ namesOf ref) = .ok (.directory entries)

def targetOf (rest : List Char) : String := String.ofList (Text.trimmed rest)

/-- A ref has a commit, by itself or through one other ref. -/
inductive Resolves (disk : Disk) (place : Path) (ref : String) : String → Prop where
  | direct {value : List Char} (holds : Holds disk place ref value) (full : value ≠ [])
      (plain : ¬ refMark <+: value) : Resolves disk place ref (String.ofList value)
  | referred {rest value : List Char} (holds : Holds disk place ref (refMark ++ rest))
      (target : Holds disk place (targetOf rest) value) (full : value ≠ []) :
      Resolves disk place ref (String.ofList value)

/-- Nothing is in the way of reading the file of a ref: it is a text or it is not there. -/
def IsReadable (disk : Disk) (place : Path) (ref : String) : Prop :=
  IsVoid disk place ref ∨ ∃ value, Holds disk place ref value

structure IsLegible (disk : Disk) (place : Path) (ref : String) : Prop where
  own : IsReadable disk place ref
  target : ∀ rest, Holds disk place ref (refMark ++ rest) → IsReadable disk place (targetOf rest)

theorem not_isReadable_of_isFolder (folder : IsFolder disk place ref) :
    ¬ IsReadable disk place ref := by
  obtain ⟨-, entries, hfolder⟩ := folder
  rintro (⟨-, e, hmissing, -⟩ | ⟨value, -, content, text, hfile, -, -⟩)
  · rw [hfolder] at hmissing
    cases hmissing
  · rw [hfolder] at hfile
    cases hfile

/-! ### Reading refs -/

theorem readRefFile_of_holds {value : List Char} (holds : Holds disk place ref value) :
    readRefFile disk place ref = .ok (if value = [] then none else some value) := by
  obtain ⟨inside, content, text, hfile, htext, rfl⟩ := holds
  unfold readRefFile
  rw [descend_eq_ok_iff.2 ⟨inside, rfl⟩, ok_bind, readText, hfile]
  simp only [htext]
  rfl

theorem readRefFile_of_isVoid (void : IsVoid disk place ref) :
    readRefFile disk place ref = .ok none := by
  obtain ⟨inside, e, hmissing, absent⟩ := void
  unfold readRefFile
  rw [descend_eq_ok_iff.2 ⟨inside, rfl⟩, ok_bind, readText, hmissing]
  exact if_pos absent

theorem isReadable_of_readRefFile {found : Option (List Char)}
    (read : readRefFile disk place ref = .ok found) : IsReadable disk place ref := by
  unfold readRefFile at read
  obtain ⟨path, hpath, hfound⟩ := bind_eq_ok.1 read
  obtain ⟨inside, rfl⟩ := descend_eq_ok_iff.1 hpath
  rw [readText] at hfound
  cases hnode : disk (place ++ namesOf ref) with
  | error e =>
      rw [hnode] at hfound
      cases absent : e.isAbsence with
      | true => exact .inl ⟨inside, e, hnode, absent⟩
      | false =>
          dsimp only at hfound
          rw [absent] at hfound
          cases hfound
  | ok node =>
      rw [hnode] at hfound
      cases node with
      | directory entries => cases hfound
      | link target => cases hfound
      | file content =>
          cases htext : Text.Utf8.decode? content.data with
          | none =>
              simp only [htext] at hfound
              cases hfound
          | some text => exact .inr ⟨_, inside, content, text, hnode, htext, rfl⟩

theorem exists_readRefFile (readable : IsReadable disk place ref) :
    ∃ found, readRefFile disk place ref = .ok found := by
  rcases readable with void | ⟨value, holds⟩
  · exact ⟨_, readRefFile_of_isVoid void⟩
  · exact ⟨_, readRefFile_of_holds holds⟩

theorem readRef_of_isVoid (void : IsVoid disk place ref) : readRef disk place ref = .ok none := by
  rw [readRef, readRefFile_of_isVoid void]
  rfl

theorem readRef_of_isFolder (folder : IsFolder disk place ref) :
    readRef disk place ref = .error DiskError.isDirectory.toFetchError := by
  obtain ⟨inside, entries, hfolder⟩ := folder
  unfold readRef readRefFile
  rw [descend_eq_ok_iff.2 ⟨inside, rfl⟩, ok_bind, readText, hfolder]
  rfl

theorem readRef_of_blank (holds : Holds disk place ref []) :
    readRef disk place ref = .ok none := by
  rw [readRef, readRefFile_of_holds holds]
  rfl

theorem readRef_of_direct {value : List Char} (holds : Holds disk place ref value)
    (full : value ≠ []) (plain : ¬ refMark <+: value) :
    readRef disk place ref = .ok (some (String.ofList value)) := by
  rw [readRef, readRefFile_of_holds holds, if_neg full, ok_bind]
  exact if_neg (mt List.isPrefixOf_iff_prefix.1 plain)

theorem refMark_append_ne_nil (rest : List Char) : refMark ++ rest ≠ [] := by
  rw [refMark]
  exact List.cons_ne_nil _ _

theorem isPrefixOf_refMark_append (rest : List Char) :
    refMark.isPrefixOf (refMark ++ rest) = true :=
  List.isPrefixOf_iff_prefix.2 (List.prefix_append _ _)

theorem readRef_of_referred {rest : List Char} (holds : Holds disk place ref (refMark ++ rest)) :
    readRef disk place ref = (readRefFile disk place (targetOf rest)).map
      (Option.map String.ofList) := by
  rw [readRef, readRefFile_of_holds holds, if_neg (refMark_append_ne_nil rest), ok_bind]
  dsimp only
  rw [if_pos (isPrefixOf_refMark_append rest), List.drop_left, targetOf]
  cases readRefFile disk place (String.ofList (Text.trimmed rest)) <;> rfl

theorem readRef_of_resolves {commit : String} (resolves : Resolves disk place ref commit) :
    readRef disk place ref = .ok (some commit) := by
  cases resolves with
  | direct holds full plain => exact readRef_of_direct holds full plain
  | referred holds target full =>
      rw [readRef_of_referred holds, readRefFile_of_holds target, if_neg full]
      rfl

theorem exists_readRef_iff :
    (∃ commit, readRef disk place ref = .ok commit) ↔ IsLegible disk place ref := by
  constructor
  · rintro ⟨commit, read⟩
    obtain ⟨found, hfound, -⟩ := bind_eq_ok.1 (by rw [readRef] at read; exact read)
    refine ⟨isReadable_of_readRefFile hfound, fun rest holds => ?_⟩
    rw [readRef_of_referred holds] at read
    obtain ⟨target, htarget, -⟩ := map_eq_ok.1 read
    exact isReadable_of_readRefFile htarget
  · rintro ⟨void | ⟨value, holds⟩, target⟩
    · exact ⟨none, readRef_of_isVoid void⟩
    · by_cases marked : refMark <+: value
      · obtain ⟨rest, rfl⟩ := marked
        obtain ⟨found, hfound⟩ := exists_readRefFile (target rest holds)
        exact ⟨_, by rw [readRef_of_referred holds, hfound]; rfl⟩
      · by_cases full : value = []
        · subst full
          exact ⟨none, readRef_of_blank holds⟩
        · exact ⟨_, readRef_of_direct holds full marked⟩

/-- Where refs have been read, the commit of each of them is known, and of no other. -/
theorem lookup_of_readRefs {names : List String} {refs : List (String × String)}
    (read : readRefs disk place names = .ok refs) (name : String) :
    (name ∈ names → readRef disk place name = .ok (refs.lookup name)) ∧
      (name ∉ names → refs.lookup name = none) := by
  induction names generalizing refs with
  | nil =>
      cases read
      exact ⟨nofun, fun _ => rfl⟩
  | cons first rest ih =>
      rw [readRefs] at read
      obtain ⟨commit, hfirst, hmore⟩ := bind_eq_ok.1 read
      obtain ⟨others, hothers, hrefs⟩ := bind_eq_ok.1 hmore
      cases hrefs
      obtain ⟨hmem, hnotMem⟩ := ih hothers
      by_cases hname : name = first
      · subst hname
        refine ⟨fun _ => ?_, fun habsent => absurd List.mem_cons_self habsent⟩
        rw [hfirst]
        cases commit with
        | some commit => simp
        | none =>
            -- The name may come again, but then it has no commit there either.
            by_cases hagain : name ∈ rest
            · rw [← hfirst, hmem hagain]
              rfl
            · exact congrArg Except.ok (hnotMem hagain).symm
      · have hlookup : ((commit.map (first, ·)).toList ++ others).lookup name =
            others.lookup name := by
          cases commit with
          | none => rfl
          | some commit => simp [List.lookup_cons, beq_false_of_ne hname]
        rw [hlookup, List.mem_cons, or_iff_right hname]
        exact ⟨hmem, hnotMem⟩

theorem exists_readRefs_iff {names : List String} :
    (∃ refs, readRefs disk place names = .ok refs) ↔ ∀ name ∈ names, IsLegible disk place name := by
  induction names with
  | nil => exact ⟨nofun, fun _ => ⟨[], rfl⟩⟩
  | cons first rest ih =>
      rw [List.forall_mem_cons, ← ih, ← exists_readRef_iff]
      constructor
      · rintro ⟨refs, read⟩
        rw [readRefs] at read
        obtain ⟨commit, hfirst, hmore⟩ := bind_eq_ok.1 read
        obtain ⟨others, hothers, -⟩ := bind_eq_ok.1 hmore
        exact ⟨⟨commit, hfirst⟩, others, hothers⟩
      · rintro ⟨⟨commit, hfirst⟩, others, hothers⟩
        rw [readRefs, hfirst, ok_bind, hothers, ok_bind]
        exact ⟨_, rfl⟩

/-! ### Polling -/

section Poll

variable {repository : Repository} {name : String} {info : PollInfo}

theorem poll_eq_ok_iff (lies : repositoryPath repository = .ok place) (last : String) :
    poll disk repository last name = .ok info ↔
      ∃ refs commit, readRefs disk place (refCandidates name) = .ok refs ∧
        (refCandidates name).findSome? (fun full => refs.lookup full) = some commit ∧
        info = ⟨commit != last, commit⟩ := by
  rw [poll, lies, ok_bind]
  constructor
  · intro polled
    obtain ⟨refs, read, hmore⟩ := bind_eq_ok.1 polled
    obtain ⟨commit, hcommit, hinfo⟩ := bind_eq_ok.1 hmore
    refine ⟨refs, commit, read, ?_, (Except.ok.inj hinfo).symm⟩
    unfold resolveRef at hcommit
    split at hcommit
    · next found hfound =>
      cases hcommit
      exact hfound
    · cases hcommit
  · rintro ⟨refs, commit, read, hfound, rfl⟩
    rw [read, ok_bind, resolveRef, hfound]
    rfl

theorem findSome?_lookup_of_readRefs {names before after : List String} {ref commit : String}
    {refs : List (String × String)} (read : readRefs disk place names = .ok refs)
    (split : names = before ++ ref :: after) (found : readRef disk place ref = .ok (some commit))
    (none : ∀ other ∈ before, readRef disk place other = .ok none) :
    names.findSome? (fun full => refs.lookup full) = some commit := by
  have hlookup : ∀ {other result}, other ∈ names → readRef disk place other = .ok result →
      refs.lookup other = result := by
    intro other result hother hread
    rw [(lookup_of_readRefs read other).1 hother] at hread
    exact Except.ok.inj hread
  refine List.findSome?_eq_some_iff.2 ⟨before, ref, after, split, ?_, ?_⟩
  · exact hlookup (by simp [split]) found
  · exact fun other hother => hlookup (by simp [split, hother]) (none other hother)

/-- If a candidate has a commit and those before it have no file, polling finds the commit exactly
if none of those before is a directory and nothing is in the way of reading those behind. -/
theorem poll_takes_first_iff (lies : repositoryPath repository = .ok place)
    {before after : List String} {candidate commit : String}
    (candidates : refCandidates name = before ++ candidate :: after)
    (resolves : Resolves disk place candidate commit)
    (earlier : ∀ other ∈ before, IsVoid disk place other ∨ IsFolder disk place other)
    (last : String) :
    poll disk repository last name = .ok info ↔ info = ⟨commit != last, commit⟩ ∧
      (∀ other ∈ before, ¬ IsFolder disk place other) ∧
        ∀ other ∈ after, IsLegible disk place other := by
  have hcandidate : readRef disk place candidate = .ok (some commit) := readRef_of_resolves resolves
  have hfound : ∀ {refs}, readRefs disk place (refCandidates name) = .ok refs →
      (∀ other ∈ before, ¬ IsFolder disk place other) →
      (refCandidates name).findSome? (fun full => refs.lookup full) = some commit := by
    intro refs read nofolder
    refine findSome?_lookup_of_readRefs read candidates hcandidate fun other hother => ?_
    exact readRef_of_isVoid ((earlier other hother).resolve_right (nofolder other hother))
  rw [poll_eq_ok_iff lies]
  constructor
  · rintro ⟨refs, found, read, hfirst, rfl⟩
    have legible := exists_readRefs_iff.1 ⟨refs, read⟩
    rw [candidates] at legible
    have nofolder : ∀ other ∈ before, ¬ IsFolder disk place other := fun other hother folder =>
      not_isReadable_of_isFolder folder (legible other (by simp [hother])).own
    rw [hfound read nofolder] at hfirst
    cases hfirst
    exact ⟨rfl, nofolder, fun other hother => legible other (by simp [hother])⟩
  · rintro ⟨rfl, nofolder, legible⟩
    have hall : ∀ ref ∈ refCandidates name, IsLegible disk place ref := by
      intro ref href
      rw [candidates] at href
      rcases List.mem_append.1 href with hbefore | hbehind
      · have void := (earlier ref hbefore).resolve_right (nofolder ref hbefore)
        exact exists_readRef_iff.1 ⟨none, readRef_of_isVoid void⟩
      · rcases List.mem_cons.1 hbehind with rfl | hafter
        · exact exists_readRef_iff.1 ⟨_, hcandidate⟩
        · exact legible ref hafter
    obtain ⟨refs, read⟩ := exists_readRefs_iff.2 hall
    exact ⟨refs, commit, read, hfound read nofolder, rfl⟩

end Poll

namespace Branches

def content (text : String) : Content := .ofBytes text.toUTF8.toList

/-- A repository whose `HEAD` says this, with these branches. -/
def root (head : String) (heads : List (String × Node)) : Node :=
  .directory [("default", .directory [("sample.git", .directory
    [("HEAD", .file (content head)), ("refs", .directory [("heads", .directory heads)])])])]

def repository : Repository := ⟨"default", "sample.git", "", ""⟩

def top : Path := ["default", "sample.git"]

/-- The branch that `HEAD` refers to, without a branch `master`. -/
def main : Node := root "ref: refs/heads/main\n" [("main", .file (content "c1\n"))]

/-- The branch `master/x`, which makes a directory of `master`. -/
def nested : Node := root "c1" [("master", .directory [("x", .file (content "c2"))])]

theorem repositoryPath_eq : repositoryPath repository = .ok top := by cbv

theorem main_head : Holds main.find? top "HEAD" (refMark ++ "refs/heads/main".toList) :=
  ⟨by decide +kernel, content "ref: refs/heads/main\n", "ref: refs/heads/main\n".toList,
    by cbv, by cbv, by cbv⟩

theorem main_target : Holds main.find? top (targetOf "refs/heads/main".toList) "c1".toList :=
  ⟨by decide +kernel, content "c1\n", "c1\n".toList, by cbv, by cbv, by cbv⟩

theorem main_master : IsVoid main.find? top "refs/heads/master" :=
  ⟨by decide +kernel, .missing, by cbv, rfl⟩

theorem nested_head : Holds nested.find? top "HEAD" "c1".toList :=
  ⟨by decide +kernel, content "c1", "c1".toList, by cbv, by cbv, by cbv⟩

theorem nested_master : IsFolder nested.find? top "refs/heads/master" :=
  ⟨by decide +kernel, [("x", .file (content "c2"))], by cbv⟩

end Branches

/-- The branch that `HEAD` refers to is taken if there is no other. -/
theorem poll_takes_referred_head :
    repositoryPath Branches.repository = .ok Branches.top ∧
      refCandidates "" = [] ++ "HEAD" :: ["refs/heads/master"] ∧
      Resolves Branches.main.find? Branches.top "HEAD" "c1" ∧
      poll Branches.main.find? Branches.repository "c0" "" = .ok ⟨true, "c1"⟩ := by
  have resolves : Resolves Branches.main.find? Branches.top "HEAD" "c1" :=
    .referred Branches.main_head Branches.main_target (by decide)
  have master : IsLegible Branches.main.find? Branches.top "refs/heads/master" :=
    exists_readRef_iff.1 ⟨none, readRef_of_isVoid Branches.main_master⟩
  have candidates : refCandidates "" = [] ++ "HEAD" :: ["refs/heads/master"] := rfl
  refine ⟨Branches.repositoryPath_eq, candidates, resolves, ?_⟩
  apply (poll_takes_first_iff Branches.repositoryPath_eq candidates resolves nofun "c0").2
  exact ⟨by decide, nofun, fun other hother => List.mem_singleton.1 hother ▸ master⟩

/-- Where the branch `master` is a directory of branches, the commit of `HEAD` is not found. -/
theorem poll_stumbles_over_folder :
    repositoryPath Branches.repository = .ok Branches.top ∧
      refCandidates "" = [] ++ "HEAD" :: ["refs/heads/master"] ∧
      Resolves Branches.nested.find? Branches.top "HEAD" "c1" ∧
      poll Branches.nested.find? Branches.repository "" "" =
        .error (.io "Is a directory (os error 21)") := by
  have resolves : Resolves Branches.nested.find? Branches.top "HEAD" "c1" :=
    .direct Branches.nested_head (by decide) (by decide)
  refine ⟨Branches.repositoryPath_eq, rfl, resolves, ?_⟩
  have candidates : refCandidates "" = ["HEAD", "refs/heads/master"] := rfl
  rw [poll, Branches.repositoryPath_eq, ok_bind, candidates, readRefs,
    readRef_of_resolves resolves, ok_bind, readRefs, readRef_of_isFolder Branches.nested_master,
    error_bind, error_bind, error_bind]
  rfl

end ManifestRelay.Snapshot
