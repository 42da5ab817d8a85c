import ManifestRelay.Proofs.Session.Run

/-!
# Dialogues with steady surroundings

Surroundings are steady if what they answer depends on the query alone and they
are never cut short.  What happens then can be computed without any state, one
part of a dialogue after another.
-/

namespace ManifestRelay.Session

open Relay
open ManifestRelay.Stream

variable {σ φ α β : Type}

namespace Dialogue

def play (answer : (query : Query φ) → query.Answer) : Dialogue φ α → List (Event φ) × α
  | .done a => ([], a)
  | .note n next =>
      let (events, a) := next.play answer
      (.noted n :: events, a)
  | .ask query next =>
      let (events, a) := (next (answer query)).play answer
      (.answered query (answer query) :: events, a)

variable (answer : (query : Query φ) → query.Answer)

theorem play_bind (d : Dialogue φ α) (f : α → Dialogue φ β) :
    (d.bind f).play answer = ((d.play answer).1 ++ ((f (d.play answer).2).play answer).1,
      ((f (d.play answer).2).play answer).2) := by
  induction d with
  | done a => rfl
  | note n next ih =>
      rw [bind, play, ih]
      rfl
  | ask query next ih =>
      rw [bind, play, ih]
      rfl

theorem play_always {p : Event φ → Prop} {d : Dialogue φ α} (always : d.Always p) :
    ∀ event ∈ (d.play answer).1, p event := by
  induction d with
  | done a => exact nofun
  | note n next ih => exact List.forall_mem_cons.2 ⟨always.1, ih always.2⟩
  | ask query next ih =>
      obtain ⟨hevent, hrest⟩ := always (answer query)
      exact List.forall_mem_cons.2 ⟨hevent, ih (answer query) hrest⟩

/-- A dialogue that asks only what the surroundings answer steadily runs as it is played. -/
theorem run_eq_play {surroundings : Surroundings σ φ} {asks : Query φ → Prop}
    (steady : ∀ query s, asks query → (surroundings.answer query s).1 = some (answer query))
    {d : Dialogue φ α} (always : d.Always fun event => ∀ query given,
      event = .answered query given → asks query) (s : σ) (before : List (Event φ)) :
    ∃ t, d.run surroundings.recorded (s, before) =
      (some (d.play answer).2, t, before ++ (d.play answer).1) := by
  induction d generalizing s before with
  | done a => exact ⟨s, by rw [run, play, List.append_nil]⟩
  | note n next ih =>
      obtain ⟨t, ht⟩ := ih always.2 (surroundings.record n s) (before ++ [.noted n])
      refine ⟨t, ?_⟩
      rw [List.append_assoc] at ht
      exact ht
  | ask query next ih =>
      have hsteady := steady query s ((always (answer query)).1 query _ rfl)
      rcases h : surroundings.answer query s with ⟨given, u⟩
      rw [h] at hsteady
      obtain rfl : given = _ := hsteady
      obtain ⟨t, ht⟩ := ih (answer query) (always (answer query)).2 u
        (before ++ [.answered query (answer query)])
      refine ⟨t, ?_⟩
      rw [List.append_assoc] at ht
      simp only [run, Surroundings.recorded, h]
      exact ht

end Dialogue

namespace Exchange

variable {answer : (query : Query φ) → query.Answer} {x : Exchange φ α} {events : List (Event φ)}

theorem play_bind_ok {f : α → Exchange φ β} {a : α} {later : List (Event φ)}
    {result : Except Status β} (h : x.run.play answer = (events, .ok a))
    (next : (f a).run.play answer = (later, result)) :
    (x >>= f).run.play answer = (events ++ later, result) := by
  refine (Dialogue.play_bind answer x.run _).trans ?_
  rw [h]
  exact congrArg (fun played => (events ++ played.1, played.2)) next

theorem play_lift {d : Dialogue φ α} {a : α} (h : d.play answer = (events, a)) :
    (ExceptT.lift d : Exchange φ α).run.play answer = (events, .ok a) := by
  refine (Dialogue.play_bind answer d _).trans ?_
  rw [h]
  exact congrArg (·, _) (List.append_nil events)

theorem play_request {query : Query φ} {given : query.Answer} (h : answer query = given) :
    (Exchange.request query).run.play answer = ([.answered query given], .ok given) := by
  rw [← h]
  rfl

theorem play_notes (notes : List Note) :
    (Exchange.notes notes : Exchange φ Unit).run.play answer = (notes.map .noted, .ok ()) := by
  induction notes with
  | nil => rfl
  | cons note rest ih => exact congrArg (fun played => (.noted note :: played.1, played.2)) ih

theorem play_bind_error {status : Status} (h : x.run.play answer = (events, .error status))
    (f : α → Exchange φ β) : (x >>= f).run.play answer = (events, .error status) := by
  refine (Dialogue.play_bind answer x.run _).trans ?_
  rw [h]
  exact congrArg (·, _) (List.append_nil events)

theorem play_fail (notes : List Note) (status : Status) :
    (Exchange.fail notes status : Exchange φ α).run.play answer =
      (notes.map .noted, .error status) := by
  refine (play_bind_ok (play_notes notes) rfl).trans ?_
  exact congrArg (·, _) (List.append_nil _)

end Exchange

end ManifestRelay.Session
