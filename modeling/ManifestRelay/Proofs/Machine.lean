import Mathlib.Data.List.Basic

/-!
# Machines that are driven

A machine is offered one act after the other, and what comes of an act may show as an
event.  Who drives a machine goes by turns, and may settle the acts of each turn by everything
that was noticed before: so a driver can be what callers and a clock do together.

If acts that are not noticed leave the looks of a machine as they are, and machines that look
alike go on looking alike, then a driver notices the same without such acts.
-/

namespace ManifestRelay

/-- A machine with acts `α`, events `η` and states `σ`. -/
structure Machine (α η σ : Type) where
  attempt : Nat → σ → α → Option η × σ
  duration : α → Nat

/-- The acts of each turn, by the instant at which it begins and by what was noticed before. -/
abbrev Driver (α η : Type) := Nat → Nat → List (Nat × η) → List α

def Driver.only {α η : Type} (kept : α → Bool) (d : Driver α η) : Driver α η :=
  fun turn now noticed => (d turn now noticed).filter kept

namespace Machine

variable {α η σ : Type}

/-- A machine at an instant, with what it has shown, oldest first. -/
structure Scene (η σ : Type) where
  now : Nat
  state : σ
  shown : List (Nat × η)

def Scene.noticed (notices : η → Bool) (c : Scene η σ) : List (Nat × η) :=
  c.shown.filter fun entry => notices entry.2

def perform (m : Machine α η σ) (c : Scene η σ) (act : α) : Scene η σ where
  now := c.now + m.duration act
  state := (m.attempt c.now c.state act).2
  shown := c.shown ++ (m.attempt c.now c.state act).1.toList.map (c.now, ·)

/-- What a number of turns lead to, with a driver that notices only some events. -/
def run (m : Machine α η σ) (notices : η → Bool) (d : Driver α η) (first : Scene η σ) :
    Nat → Scene η σ
  | 0 => first
  | turn + 1 =>
      let c := m.run notices d first turn
      (d turn c.now (c.noticed notices)).foldl m.perform c

variable {m : Machine α η σ} {notices : η → Bool}

theorem run_preserves (m : Machine α η σ) (notices : η → Bool) (p : Scene η σ → Prop)
    (step : ∀ c, p c → ∀ act, p (m.perform c act)) (d : Driver α η) (first : Scene η σ)
    (holds : p first) (turns : Nat) : p (m.run notices d first turns) := by
  have hfold : ∀ (acts : List α) c, p c → p (acts.foldl m.perform c) := by
    intro acts
    induction acts with
    | nil => exact fun c hc => hc
    | cons act rest ih => exact fun c hc => ih _ (step c hc act)
  induction turns with
  | zero => exact holds
  | succ turn ih => exact hfold _ _ ih

theorem noticed_perform (c : Scene η σ) (act : α) : (m.perform c act).noticed notices =
    c.noticed notices ++
      ((m.attempt c.now c.state act).1.filter notices).toList.map (c.now, ·) := by
  rw [Scene.noticed, perform, List.filter_append, Scene.noticed]
  cases (m.attempt c.now c.state act).1 with
  | none => rfl
  | some event => cases h : notices event <;> simp [h, Option.filter_some]

/-! ### Acts that are not noticed -/

/-- States that look alike from an instant on go on looking alike; hidden acts take no time, are
not noticed, and leave the looks as they are. -/
structure Unwinds (m : Machine α η σ) (notices : η → Bool) (hidden : α → Prop)
    (alike : Nat → σ → σ → Prop) : Prop where
  attempt : ∀ {now s t}, alike now s t → ∀ act,
    (m.attempt now s act).1.filter notices = (m.attempt now t act).1.filter notices ∧
      alike (now + m.duration act) (m.attempt now s act).2 (m.attempt now t act).2
  hide : ∀ {now s t}, alike now s t → ∀ {act}, hidden act → m.duration act = 0 ∧
    (m.attempt now s act).1.filter notices = none ∧ alike now (m.attempt now s act).2 t

/-- Scenes that cannot be told apart by what is noticed. -/
structure Scene.Alike (notices : η → Bool) (alike : Nat → σ → σ → Prop) (c d : Scene η σ) :
    Prop where
  now : c.now = d.now
  noticed : c.noticed notices = d.noticed notices
  state : alike c.now c.state d.state

namespace Unwinds

variable {hidden : α → Prop} {alike : Nat → σ → σ → Prop} {c d : Scene η σ}

theorem perform (unwinds : m.Unwinds notices hidden alike) (h : c.Alike notices alike d)
    (act : α) : (m.perform c act).Alike notices alike (m.perform d act) := by
  obtain ⟨hevent, hstate⟩ := unwinds.attempt h.state act
  rw [h.now] at hevent
  refine ⟨congrArg (· + m.duration act) h.now, ?_, ?_⟩
  · rw [noticed_perform, noticed_perform, h.noticed, h.now, hevent]
  · rw [Machine.perform, Machine.perform, ← h.now]
    exact hstate

theorem perform_hidden (unwinds : m.Unwinds notices hidden alike) (h : c.Alike notices alike d)
    {act : α} (hact : hidden act) : (m.perform c act).Alike notices alike d := by
  obtain ⟨hduration, hevent, hstate⟩ := unwinds.hide h.state hact
  refine ⟨?_, ?_, ?_⟩
  · rw [Machine.perform, hduration]
    exact h.now
  · rw [noticed_perform, hevent, h.noticed]
    exact List.append_nil _
  · rw [Machine.perform, hduration]
    exact hstate

theorem foldl_filter (unwinds : m.Unwinds notices hidden alike) {kept : α → Bool}
    (dropped : ∀ act, kept act = false → hidden act) (acts : List α)
    (h : c.Alike notices alike d) :
    (acts.foldl m.perform c).Alike notices alike ((acts.filter kept).foldl m.perform d) := by
  induction acts generalizing c d with
  | nil => exact h
  | cons act rest ih =>
      cases hkept : kept act with
      | true =>
          rw [List.filter_cons_of_pos hkept]
          exact ih (unwinds.perform h act)
      | false =>
          rw [List.filter_cons_of_neg (by simp [hkept])]
          exact ih (unwinds.perform_hidden h (dropped act hkept))

/-- Whoever notices only some events notices the same if hidden acts are left out. -/
theorem run_only (unwinds : m.Unwinds notices hidden alike) {kept : α → Bool}
    (dropped : ∀ act, kept act = false → hidden act) (driver : Driver α η)
    (first : Scene η σ) (h : alike first.now first.state first.state) (turns : Nat) :
    (m.run notices driver first turns).Alike notices alike
      (m.run notices (driver.only kept) first turns) := by
  induction turns with
  | zero => exact ⟨rfl, rfl, h⟩
  | succ turn ih =>
      rw [run, run, Driver.only, ← ih.now, ← ih.noticed]
      exact unwinds.foldl_filter dropped _ ih

end Unwinds

end Machine

end ManifestRelay
