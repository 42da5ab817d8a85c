import ManifestRelay.Proofs.Cache.Attempts

/-!
# Sweeps make no difference

A cache is driven by callers, their loaders and whoever decides which of the calls that wait
is served next; all of them may go by what calls noticed before.  Whether expired entries are swept,
and when, makes no difference to what calls notice: which attempts succeed, which loaders are
called, which answers are given, and at which instants.
-/

namespace ManifestRelay.Cache.Flights

variable {κ ε ν : Type} [DecidableEq κ] {keyOf : Nat → κ}

theorem noticed_run (lifetimes : Lifetimes) (keyOf : Nat → κ) (notices : Event κ ε ν → Bool)
    (driver : Driver (Act ε ν) (Event κ ε ν)) (turns : Nat) :
    ((machine keyOf).run notices driver (unused lifetimes) turns).noticed
        (Event.isFor keyOf fun _ => true) =
      ((machine keyOf).run notices driver (unused lifetimes) turns).shown := by
  have hpreserved := Machine.run_preserves (machine keyOf) notices
    (fun c => c.state.IsSound keyOf c.now ∧
      c.noticed (Event.isFor keyOf fun _ => true) = c.shown) ?_ driver
    (unused lifetimes) ⟨.empty lifetimes, rfl⟩ turns
  · exact hpreserved.2
  · rintro c ⟨sound, hshown⟩ act
    refine ⟨sound.attempt act, ?_⟩
    rw [Machine.noticed_perform, hshown, Machine.perform]
    congr 3
    cases act with
    | wait | sweep => rfl
    | move id move => exact filter_move sound id move

/-- Sweeps make no difference: without them the same attempts succeed, the same answers are given
and the same loaders are called, all at the same instants. -/
theorem run_without_sweeps (lifetimes : Lifetimes) (keyOf : Nat → κ)
    (driver : Driver (Act ε ν) (Event κ ε ν)) (turns : Nat) :
    let everybody := Event.isFor keyOf fun _ => true
    let swept := (machine keyOf).run everybody driver (unused lifetimes) turns
    let unswept := (machine keyOf).run everybody (driver.only fun act => !act.isSweep)
      (unused lifetimes) turns
    swept.shown = unswept.shown ∧ swept.now = unswept.now := by
  intro everybody swept unswept
  have hdropped : ∀ act : Act ε ν, (!act.isSweep) = false →
      act = .sweep ∨ act.isFor keyOf (fun _ => true) = false := by
    intro act h
    cases act with
    | sweep => exact .inl rfl
    | wait | move => cases h
  have halike := (unwinds keyOf fun _ => true).run_only hdropped driver
    (unused lifetimes) (twins_empty lifetimes keyOf _) turns
  refine ⟨?_, halike.now⟩
  rw [← noticed_run, ← noticed_run]
  exact halike.noticed

end ManifestRelay.Cache.Flights
