import Mathlib.Data.List.Induction
import ManifestRelay.Proofs.Cache.Separation

/-!
# Where answers come from

An answer that a call is given without loading was loaded before by a call for the same key,
whoever drives the cache and whether or not it keeps answers.
-/

namespace ManifestRelay.Cache.Flights

variable {κ ε ν : Type} {keyOf : Nat → κ}

/-- What is given without loading was loaded before, by a call about the same. -/
def AnswersAreOwn {β : Type} (subject : Nat → β) (history : List (Nat × Event κ ε ν)) : Prop :=
  ∀ before time id answer after, history = before ++ (time, .answered id answer) :: after →
    ∃ earlier loader, (earlier, .loaded loader answer) ∈ before ∧ subject loader = subject id

theorem AnswersAreOwn.concat {history : List (Nat × Event κ ε ν)}
    (own : AnswersAreOwn keyOf history) {time : Nat} {event : Event κ ε ν}
    (last : ∀ id answer, event = .answered id answer →
      ∃ earlier loader, (earlier, .loaded loader answer) ∈ history ∧ keyOf loader = keyOf id) :
    AnswersAreOwn keyOf (history ++ [(time, event)]) := by
  intro before instant id answer after h
  rcases List.eq_nil_or_concat after with rfl | ⟨between, final, rfl⟩
  · obtain ⟨rfl, hlast⟩ := List.append_inj' h rfl
    cases hlast
    exact last id answer rfl
  · rw [List.concat_eq_append, ← List.cons_append, ← List.append_assoc] at h
    obtain ⟨hbefore, -⟩ := List.append_inj' h rfl
    exact own before instant id answer between hbefore

variable [DecidableEq κ]

theorem eq_of_keyOf_ofHistory {history : List (Nat × Event κ ε ν)}
    (named : ∀ entry ∈ history, entry.2.IsNamed keyOf) {id : Nat} {key : κ}
    (h : (Ledger.ofHistory history).keyOf id = some key) : key = keyOf id := by
  induction history using List.reverseRecOn with
  | nil => cases h
  | append_singleton history entry ih =>
      obtain ⟨time, event⟩ := entry
      rw [Ledger.ofHistory_concat] at h
      have hbefore : ∀ entry ∈ history, entry.2.IsNamed keyOf :=
        fun entry hentry => named entry (List.mem_append_left _ hentry)
      have hnamed := named (time, event) (by simp)
      cases event with
      | joined other name =>
          simp only [Ledger.enter] at h
          split at h
          · next heq =>
            cases h
            rw [heq]
            exact hnamed
          · exact ih hbefore h
      | grasped | left | answered | began | loaded | swept => exact ih hbefore h

theorem loaded_of_mem_loads {history : List (Nat × Event κ ε ν)}
    (named : ∀ entry ∈ history, entry.2.IsNamed keyOf) {key : κ} {load : Completion ε ν}
    (h : load ∈ (Ledger.ofHistory history).loads key) :
    ∃ loader, (load.time, .loaded loader load.answer) ∈ history ∧ keyOf loader = key := by
  induction history using List.reverseRecOn with
  | nil => cases h
  | append_singleton history entry ih =>
      obtain ⟨time, event⟩ := entry
      rw [Ledger.ofHistory_concat] at h
      have hnamed : ∀ entry ∈ history, entry.2.IsNamed keyOf :=
        fun entry hentry => named entry (List.mem_append_left _ hentry)
      have hearlier : load ∈ (Ledger.ofHistory history).loads key →
          ∃ loader, (load.time, .loaded loader load.answer) ∈ history ++ [(time, event)] ∧
            keyOf loader = key := by
        intro h
        obtain ⟨loader, hmem, hkey⟩ := ih hnamed h
        exact ⟨loader, List.mem_append_left _ hmem, hkey⟩
      cases event with
      | loaded id answer =>
          simp only [Ledger.enter] at h
          split at h
          · next hkey =>
            rcases List.mem_append.1 h with hold | hnew
            · exact hearlier hold
            · rw [List.mem_singleton.1 hnew]
              exact ⟨id, by simp, (eq_of_keyOf_ofHistory hnamed hkey).symm⟩
          · exact hearlier h
      | joined | grasped | left | answered | began | swept => exact hearlier h

/-- A cache that has given only answers that were loaded for the same key. -/
structure IsAccounted (keyOf : Nat → κ) (c : Machine.Scene (Event κ ε ν) (Flights κ ε ν)) :
    Prop where
  consistent : c.state.lifetimes.isEnabled = true → c.state.Consistent
  agrees : c.state.lifetimes.isEnabled = true → c.state.Agrees (.ofHistory c.shown) c.now
  named : ∀ entry ∈ c.shown, entry.2.IsNamed keyOf
  own : AnswersAreOwn keyOf c.shown

namespace IsAccounted

variable {c : Machine.Scene (Event κ ε ν) (Flights κ ε ν)}

theorem unused (lifetimes : Lifetimes) :
    IsAccounted keyOf (unused lifetimes : Machine.Scene (Event κ ε ν) (Flights κ ε ν)) where
  consistent _ := .empty lifetimes
  agrees _ := .empty lifetimes
  named := nofun
  own := by
    intro before time id answer after h
    cases before <;> cases h

theorem later (accounted : IsAccounted keyOf c) (duration : Nat) :
    IsAccounted keyOf ⟨c.now + duration, c.state, c.shown⟩ where
  consistent := accounted.consistent
  agrees enabled := (accounted.agrees enabled).later (Nat.le_add_right c.now duration)
  named := accounted.named
  own := accounted.own

theorem named_concat (accounted : IsAccounted keyOf c) {time : Nat} {event : Event κ ε ν}
    (named : event.IsNamed keyOf) :
    ∀ entry ∈ c.shown ++ [(time, event)], entry.2.IsNamed keyOf := by
  intro entry hentry
  rcases List.mem_append.1 hentry with hold | hnew
  · exact accounted.named entry hold
  · rw [List.mem_singleton.1 hnew]
    exact named

/-- An answer that is given is the latest load in the ledger, so a call for the same key loaded
it. -/
theorem step (accounted : IsAccounted keyOf c) (enabled : c.state.lifetimes.isEnabled = true)
    {event : Event κ ε ν} {next : Flights κ ε ν} (step : Step c.now event c.state next)
    (named : event.IsNamed keyOf) :
    IsAccounted keyOf ⟨c.now, next, c.shown ++ [(c.now, event)]⟩ where
  consistent _ := step.consistent (accounted.consistent enabled)
  agrees _ := by
    rw [Ledger.ofHistory_concat]
    exact step.agrees (accounted.consistent enabled) (accounted.agrees enabled) (Nat.le_refl c.now)
  named := accounted.named_concat named
  own := by
    refine accounted.own.concat ?_
    rintro id answer rfl
    obtain ⟨key, load, hkey, hlatest, rfl, -⟩ := step.isJustified
      (accounted.consistent enabled) (accounted.agrees enabled) (Nat.le_refl c.now)
    obtain ⟨loader, hmem, hloader⟩ :=
      loaded_of_mem_loads accounted.named (List.mem_of_getLast? hlatest)
    rw [← eq_of_keyOf_ofHistory accounted.named hkey]
    exact ⟨load.time, loader, hmem, hloader⟩

theorem bypass (accounted : IsAccounted keyOf c) (disabled : c.state.lifetimes.isEnabled ≠ true)
    {id : Nat} {move : Move ε ν} {event : Event κ ε ν} (h : Flights.bypass id move = some event) :
    IsAccounted keyOf ⟨c.now, c.state, c.shown ++ [(c.now, event)]⟩ where
  consistent enabled := absurd enabled disabled
  agrees enabled := absurd enabled disabled
  named := accounted.named_concat (by cases move <;> cases h <;> trivial)
  own := by
    refine accounted.own.concat ?_
    rintro id answer rfl
    cases move <;> cases h

theorem sweep (accounted : IsAccounted keyOf c) :
    IsAccounted keyOf ⟨c.now, (c.state.sweep c.now).2, c.shown⟩ where
  consistent enabled := (accounted.consistent enabled).sweep c.now
  agrees enabled := (accounted.agrees enabled).sweep
  named := accounted.named
  own := accounted.own

theorem undertake (accounted : IsAccounted keyOf c) (enabled : c.state.lifetimes.isEnabled = true)
    (id : Nat) (move : Move ε ν) :
    IsAccounted keyOf ⟨c.now, (c.state.undertake c.now id (keyOf id) move).2,
      c.shown ++ (c.state.undertake c.now id (keyOf id) move).1.toList.map (c.now, ·)⟩ := by
  cases h : c.state.undertake c.now id (keyOf id) move with
  | mk event next =>
      cases event with
      | none =>
          rw [undertake_of_fst_eq_none (by rw [h])] at h
          cases h
          simpa using accounted
      | some event =>
          obtain ⟨step, -, named⟩ :=
            (undertake_eq_some_iff enabled (accounted.consistent enabled)).1 h
          exact accounted.step enabled step named

theorem perform (accounted : IsAccounted keyOf c) (act : Act ε ν) :
    IsAccounted keyOf ((machine keyOf).perform c act) := by
  cases act with
  | wait duration =>
      rw [perform_wait]
      exact accounted.later duration
  | sweep =>
      rw [perform_sweep]
      exact accounted.sweep
  | move id move =>
      change IsAccounted keyOf ⟨c.now, (c.state.attempt keyOf c.now (.move id move)).2,
        c.shown ++ (c.state.attempt keyOf c.now (.move id move)).1.toList.map (c.now, ·)⟩
      rw [attempt]
      split
      · next enabled => exact accounted.undertake enabled id move
      · next disabled =>
        cases h : Flights.bypass id move with
        | none => simpa [h] using accounted
        | some event => simpa [h] using accounted.bypass disabled h

end IsAccounted

end ManifestRelay.Cache.Flights
