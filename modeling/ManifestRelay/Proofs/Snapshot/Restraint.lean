import Mathlib.Tactic.Common
import ManifestRelay.Snapshot.Fetcher

/-!
# Walks that keep to what they were allowed

A visitor that takes a file says how many bytes of it may follow.  A walk is
restrained if it never hands over more, and if it never breaks down by itself.
Walks of snapshots are, also where files have grown since they were measured:
the limit is checked again before every piece.
-/

namespace ManifestRelay

namespace Fetch

/-- Whether a failure says that something came about that must not. -/
def FetchError.isBroken : FetchError → Bool
  | .broken _ => true
  | _ => false

def IsUnbroken {α : Type} (result : Except FetchError α) : Prop :=
  ∀ e, result = .error e → e.isBroken = false

theorem isUnbroken_ok {α : Type} (a : α) : IsUnbroken (.ok a) := nofun

theorem isUnbroken_error {α : Type} {e : FetchError} (h : e.isBroken = false) :
    IsUnbroken (.error e : Except FetchError α) := by
  intro same hsame
  cases hsame
  exact h

theorem IsUnbroken.bind {α β : Type} {x : Except FetchError α} {f : α → Except FetchError β}
    (first : IsUnbroken x) (later : ∀ a, IsUnbroken (f a)) : IsUnbroken (x >>= f) := by
  cases x with
  | ok a => exact later a
  | error e => exact isUnbroken_error (first e rfl)

/-- A walk is restrained from here on.  Of the file at hand, if there is one, `allowance` bytes
may still follow.  It may rely on a visitor that does not break down. -/
def Walk.IsRestrained : Walk → Option Int → Prop
  | .finished result, _ => IsUnbroken result
  | .missing .., _ => True
  | .entry _ next, _ =>
      (next (.ok .skip)).IsRestrained none ∧
        (∀ limit, (next (.ok (.take limit))).IsRestrained (some limit)) ∧
        ∀ e, e.isBroken = false → (next (.error e)).IsRestrained none
  | .chunk _ data next, allowance =>
      ∃ limit, allowance = some limit ∧ data.length ≤ limit ∧
        (∀ stop, (next (.ok stop)).IsRestrained (some (limit - data.length))) ∧
        ∀ e, e.isBroken = false → (next (.error e)).IsRestrained none

end Fetch

namespace Snapshot

open Fetch Metadata

/-! ### Files -/

theorem isUnbroken_checkSize (path : String) (size : Nat) (limit : Int) :
    IsUnbroken (checkSize path size limit) := by
  unfold checkSize
  split
  · exact isUnbroken_ok ()
  · exact isUnbroken_error rfl

theorem le_of_checkSize {path : String} {size : Nat} {limit : Int}
    (passed : checkSize path size limit = .ok ()) : (size : Int) ≤ limit := by
  unfold checkSize at passed
  split at passed
  · assumption
  · cases passed

theorem isRestrained_pieceWalk {path : String} {limit : Int} {rest : Walk}
    (later : ∀ allowance, rest.IsRestrained allowance) (total : Nat) (pieces : List (List UInt8)) :
    (pieceWalk path limit rest total pieces).IsRestrained (some (limit - total)) := by
  induction pieces generalizing total with
  | nil => exact later _
  | cons piece more ih =>
      rw [pieceWalk]
      split
      · next e refused => exact isUnbroken_error (isUnbroken_checkSize _ _ _ e refused)
      · next passed =>
        have hfits := le_of_checkSize passed
        have hless : limit - total - piece.length = limit - (total + piece.length : Nat) := by omega
        refine ⟨limit - total, rfl, by omega, fun stop => ?_, fun e he => isUnbroken_error he⟩
        cases stop with
        | true => exact isUnbroken_ok ()
        | false =>
            rw [hless]
            exact ih (total + piece.length)

/-- A walk of files is restrained, whatever their sizes were measured to be. -/
theorem isRestrained_fileWalk (files : List (String × Content)) (allowance : Option Int) :
    (fileWalk files).IsRestrained allowance := by
  induction files generalizing allowance with
  | nil => exact isUnbroken_ok ()
  | cons file rest ih =>
      obtain ⟨path, content⟩ := file
      refine ⟨ih none, fun limit => ?_, fun e he => isUnbroken_error he⟩
      dsimp only
      split
      · next e refused => exact isUnbroken_error (isUnbroken_checkSize _ _ _ e refused)
      · have hpieces : (pieceWalk path limit (fileWalk rest) 0
            (piecesOf (readSize - 1) content.data)).IsRestrained (some (limit - (0 : Nat))) :=
          isRestrained_pieceWalk ih 0 _
        rwa [Int.ofNat_zero, Int.sub_zero] at hpieces

/-! ### Commits -/

theorem isUnbroken_descend (base : Path) (relative : String) :
    IsUnbroken (descend base relative) := by
  unfold descend
  split
  · exact isUnbroken_error rfl
  · exact isUnbroken_ok _

theorem prefix_of_descend {base place : Path} {relative : String}
    (leads : descend base relative = .ok place) : base <+: place := by
  unfold descend at leads
  split at leads
  · cases leads
  · cases leads
    exact List.prefix_append base _

theorem isUnbroken_treePath (repository : Repository) (revision : String) :
    IsUnbroken (treePath repository revision) := by
  unfold treePath
  split
  · exact isUnbroken_error rfl
  · refine IsUnbroken.bind ?_ fun _ => isUnbroken_ok _
    exact (isUnbroken_descend [] _).bind fun storage => isUnbroken_descend storage _

theorem isUnbroken_present (disk : Disk) (path : Path) : IsUnbroken (present disk path) := by
  unfold present
  split
  · exact isUnbroken_ok _
  · exact isUnbroken_ok _
  · exact isUnbroken_error rfl

theorem isUnbroken_start (disk : Disk) (repository : Repository) (revision directory : String)
    (recursive : Bool) : IsUnbroken (visit.start disk repository revision directory recursive) := by
  unfold visit.start
  refine (isUnbroken_treePath repository revision).bind fun tree => ?_
  refine (isUnbroken_present disk tree).bind fun top => ?_
  dsimp only
  split
  · exact isUnbroken_error rfl
  · split
    on_goal 1 => refine (isUnbroken_ok tree).bind fun start => ?_
    on_goal 2 => refine (isUnbroken_descend tree directory).bind fun start => ?_
    all_goals
      refine (isUnbroken_present disk start).bind fun node => ?_
      split
      · exact isUnbroken_ok _
      · exact isUnbroken_ok _
      · exact isUnbroken_error rfl

theorem isRestrained_visit (disk : Disk) (repository : Repository) (revision directory : String)
    (recursive : Bool) : (visit disk repository revision directory recursive).IsRestrained none := by
  unfold visit
  split
  · next e failed => exact isUnbroken_error (isUnbroken_start _ _ _ _ _ e failed)
  · trivial
  · exact isRestrained_fileWalk _ none

end Snapshot

end ManifestRelay
