import Mathlib.Data.String.Basic
import ManifestRelay.Proofs.Outcome
import ManifestRelay.Snapshot.Fetcher

/-!
# Names on relative paths

The names on a relative path have no slash in them and are neither empty nor a dot.
If the path does not leave the directory that it starts from, none of them goes up.
-/

namespace ManifestRelay.Snapshot

open Fetch Metadata Outcome

theorem no_slash_of_mem_splitOn {chars piece : List Char} (h : piece ∈ chars.splitOn '/') :
    '/' ∉ piece := by
  induction chars generalizing piece with
  | nil =>
      rw [List.splitOn_nil, List.mem_singleton] at h
      rw [h]
      exact List.not_mem_nil
  | cons c rest ih =>
      rw [List.splitOn_cons_eq_if_modifyHead] at h
      split at h
      · rcases List.mem_cons.1 h with rfl | hrest
        · exact List.not_mem_nil
        · exact ih hrest
      · next hother =>
        obtain ⟨first, more, hpieces⟩ := List.exists_cons_of_ne_nil (List.splitOn_ne_nil '/' rest)
        rw [hpieces] at h ih
        rw [List.modifyHead_cons] at h
        rcases List.mem_cons.1 h with rfl | hmore
        · intro hmem
          rcases List.mem_cons.1 hmem with rfl | hfirst
          · exact hother rfl
          · exact ih List.mem_cons_self hfirst
        · exact ih (List.mem_cons_of_mem first hmore)

theorem no_slash_of_mem_namesOf {relative name : String} (h : name ∈ namesOf relative) :
    '/' ∉ name.toList := by
  obtain ⟨chars, hchars, rfl⟩ := List.mem_map.1 (List.mem_of_mem_filter h)
  rw [String.toList_ofList]
  exact no_slash_of_mem_splitOn hchars

theorem goes_down_of_mem_namesOf {relative name : String} (inside : leaves relative = false)
    (h : name ∈ namesOf relative) : name ≠ "" ∧ name ≠ "." ∧ name ≠ ".." := by
  have hkept := (List.mem_filter.1 h).2
  rw [Bool.and_eq_true, bne_iff_ne, bne_iff_ne] at hkept
  refine ⟨hkept.1, hkept.2, ?_⟩
  rintro rfl
  rw [leaves, Bool.or_eq_false_iff, List.contains_eq_mem, decide_eq_false_iff_not] at inside
  exact inside.2 h

theorem mem_tail_splitOn_append {chars piece : List Char} (h : piece ∈ chars.splitOn '/')
    (before : List Char) : piece ∈ ((before ++ '/' :: chars).splitOn '/').tail := by
  induction before with
  | nil =>
      rw [List.nil_append, List.splitOn_cons_eq_if_modifyHead, if_pos (beq_self_eq_true '/')]
      exact h
  | cons c before ih =>
      rw [List.cons_append, List.splitOn_cons_eq_if_modifyHead]
      split
      · exact List.mem_of_mem_tail ih
      · rwa [List.tail_modifyHead]

theorem mem_namesOf_append {relative name : String} (h : name ∈ namesOf relative)
    {before : String} {chars : List Char} (slash : before.toList = chars ++ ['/']) :
    name ∈ namesOf (before ++ relative) := by
  obtain ⟨hname, kept⟩ := List.mem_filter.1 h
  obtain ⟨piece, hpiece, rfl⟩ := List.mem_map.1 hname
  refine List.mem_filter.2 ⟨List.mem_map.2 ⟨piece, ?_, rfl⟩, kept⟩
  rw [String.toList_append, slash, List.append_assoc]
  exact List.mem_of_mem_tail (mem_tail_splitOn_append hpiece chars)

theorem leaves_of_mem {relative : String} (h : ".." ∈ namesOf relative) :
    leaves relative = true := by
  rw [leaves, Bool.or_eq_true, List.contains_iff_mem]
  exact .inr h

theorem descend_of_leaves {relative : String} (h : leaves relative = true) (base : Path) :
    descend base relative = .error (.notFound relative) := by
  rw [descend, if_pos h]

theorem descend_eq_ok_iff {base place : Path} {relative : String} :
    descend base relative = .ok place ↔ leaves relative = false ∧ place = base ++ namesOf relative := by
  rw [descend]
  cases leaves relative <;> simp [eq_comm]

theorem leaves_top : leaves topName = false := by
  decide +kernel

theorem descend_top (tree : Path) : descend tree topName = .ok tree := by
  have nothing : namesOf topName = [] := by decide
  rw [descend_eq_ok_iff, nothing, List.append_nil]
  exact ⟨leaves_top, rfl⟩

/-- A walk fails, finds its directory missing, or offers the files that are listed there. -/
theorem visit_start_eq (disk : Disk) (repository : Repository) (revision directory : String)
    (recursive : Bool) : visit.start disk repository revision directory recursive =
      treePath repository revision >>= fun tree => match disk tree with
        | .error .missing => .error (.refNotFound revision)
        | .error e => .error e.toFetchError
        | .ok _ => descend tree directory >>= fun start => match disk start with
            | .error .missing => .ok none
            | .error e => .error e.toFetchError
            | .ok (.directory entries) =>
                .ok (some (listFiles entries (start.drop tree.length) recursive))
            | .ok _ => .error (.unexpectedEntry directory) := by
  unfold visit.start
  refine congrArg (treePath repository revision >>= ·) (funext fun tree => ?_)
  rw [present]
  rcases disk tree with e | top
  · cases e <;> rfl
  · dsimp only
    by_cases htop : directory = topName
    · have hdescend : descend tree directory = .ok tree := by rw [htop, descend_top]
      rw [if_pos htop, hdescend, ok_bind, ok_bind, Option.isNone_some]
      rw [if_neg Bool.false_ne_true, pure_bind, present]
      rcases disk tree with e | node
      · cases e <;> rfl
      · cases node <;> rfl
    · rw [if_neg htop, ok_bind, Option.isNone_some, if_neg Bool.false_ne_true]
      refine congrArg (descend tree directory >>= ·) (funext fun start => ?_)
      rw [present]
      rcases disk start with e | node
      · cases e <;> rfl
      · cases node <;> rfl

end ManifestRelay.Snapshot
