import ManifestRelay.Proofs.Session.Sent

/-!
# Runs beside each other

Two hosts serve a stream alike if their states correspond to each other: they
stop and pause alike, and in every tick the same happens, or one tick meets a
setback where the other finds nothing new.  If the stream lives with setbacks as
it does with finding nothing new, its reader cannot tell the two runs apart.
-/

namespace ManifestRelay.Session

open Metadata
open ManifestRelay.Stream

variable {σ σ' φ τ α : Type}

/-! ### Dialogues on record -/

def Dialogue.events (surroundings : Surroundings σ φ) (d : Dialogue φ α) (s : σ) :
    List (Event φ) := (d.run surroundings.recorded (s, [])).2.2

theorem Dialogue.run_recorded_append (surroundings : Surroundings σ φ) (d : Dialogue φ α) (s : σ)
    (before : List (Event φ)) :
    d.run surroundings.recorded (s, before) =
      ((d.run surroundings s).1, (d.run surroundings s).2, before ++ d.events surroundings s) := by
  obtain ⟨first, hfirst, -⟩ := d.run_recorded surroundings s []
  have hplain : d.events surroundings s = first := by
    rw [Dialogue.events, hfirst]
    rfl
  have hshift : ∀ (d : Dialogue φ α) (s : σ) (before later : List (Event φ)),
      d.run surroundings.recorded (s, before ++ later) =
        ((d.run surroundings.recorded (s, later)).1, (d.run surroundings.recorded (s, later)).2.1,
          before ++ (d.run surroundings.recorded (s, later)).2.2) := by
    intro d
    induction d with
    | done a => exact fun _ _ _ => rfl
    | note note next ih =>
        intro s before later
        have hnext := ih (surroundings.record note s) before (later ++ [.noted note])
        rw [← List.append_assoc] at hnext
        exact hnext
    | ask query next ih =>
        intro s before later
        rcases h : surroundings.answer query s with ⟨_ | answer, t⟩
        · simp [Dialogue.run, Surroundings.recorded, h]
        · have hnext := ih answer t before (later ++ [.answered query answer])
          rw [← List.append_assoc] at hnext
          simp only [Dialogue.run, Surroundings.recorded, h, Option.map_some, Option.toList_some]
          exact hnext
  have hbefore := hshift d s before []
  rw [List.append_nil] at hbefore
  rw [hbefore, hfirst, hplain]
  rfl

theorem Dialogue.transcript_events (surroundings : Surroundings σ φ) (d : Dialogue φ α) (s : σ) :
    Transcript d (d.events surroundings s) (d.run surroundings s).1 := by
  obtain ⟨events, hrun, htranscript, -⟩ := d.run_recorded surroundings s []
  rwa [Dialogue.events, hrun]

theorem Transcript.outcome_unique {d : Dialogue φ α} {events : List (Event φ)}
    {outcome other : Option α} (first : Transcript d events outcome)
    (second : Transcript d events other) : outcome = other := by
  induction first with
  | done a =>
      cases second
      rfl
  | note rest ih =>
      cases second with
      | note same => exact ih same
  | ask answer rest ih =>
      cases second with
      | ask _ same => exact ih same
  | cut =>
      cases second
      rfl

theorem Transcript.waits {d : Dialogue φ α} {events : List (Event φ)}
    (transcript : Transcript d events none) : ∃ query, Waits query d events := by
  generalize houtcome : (none : Option α) = outcome at transcript
  induction transcript with
  | done a => cases houtcome
  | note rest ih =>
      obtain ⟨query, hwaits⟩ := ih houtcome
      exact ⟨query, .note hwaits⟩
  | ask answer rest ih =>
      obtain ⟨query, hwaits⟩ := ih houtcome
      exact ⟨query, .ask answer hwaits⟩
  | @cut query _ => exact ⟨query, .here⟩

/-! ### Setbacks -/

/-- Something that the relay's surroundings could not do for now. -/
def Event.IsSetback : Event φ → Prop
  | .answered (.agent _) (.error (.unexpected ..)) => True
  | .answered (.project ..) (.error (.unexpected ..)) => True
  | .answered (.poll ..) (.error _) => True
  | .answered (.file ..) (.error e) => e.isUserError = false
  | _ => False

def Event.IsNoUpdate : Event φ → Prop
  | .answered (.poll ..) (.ok info) => info.updateAvailable = false
  | _ => False

/-- A tick that meets a setback or finds nothing new sends nothing, leaves the cursor alone and does
not end the stream. -/
def Plan.LivesWithSetbacks (plan : Plan φ τ) : Prop :=
  ∀ opened cursor events outcome, Transcript (plan.tick opened cursor).run events outcome →
    (∃ event ∈ events, event.IsSetback ∨ event.IsNoUpdate) →
    outcome = some (.ok cursor) ∧ sent events = []

/-- Two hosts serve a stream alike, but for setbacks in ticks of the first where the second has
nothing new. -/
structure Plan.Alike (plan : Plan φ τ) (host : Host σ φ) (other : Host σ' φ) (same : σ → σ' → Prop) :
    Prop where
  start : ∀ {s t}, same s t → same (host.start plan.maxAge s) (other.start plan.maxAge t)
  stopped : ∀ {s t}, same s t → host.isStopped s = other.isStopped t
  pause : ∀ {s t}, same s t →
    (host.pause plan.interval s).1 = (other.pause plan.interval t).1 ∧
      same (host.pause plan.interval s).2 (other.pause plan.interval t).2
  opening : ∀ {s t}, same s t →
    plan.opening.run.events host.toSurroundings s = plan.opening.run.events other.toSurroundings t ∧
      same (plan.opening.run.run host.toSurroundings s).2
        (plan.opening.run.run other.toSurroundings t).2
  tick : ∀ opened cursor {s t}, same s t →
    ((plan.tick opened cursor).run.events host.toSurroundings s =
        (plan.tick opened cursor).run.events other.toSurroundings t ∨
      (∃ event ∈ (plan.tick opened cursor).run.events host.toSurroundings s, event.IsSetback) ∧
      ∃ event ∈ (plan.tick opened cursor).run.events other.toSurroundings t, event.IsNoUpdate) ∧
    same ((plan.tick opened cursor).run.run host.toSurroundings s).2
      ((plan.tick opened cursor).run.run other.toSurroundings t).2

/-- States that correspond to each other, with what the readers have seen and with the cursors. -/
def Plan.Beside (same : σ → σ' → Prop) (first : (σ × List (Event φ)) × String)
    (second : (σ' × List (Event φ)) × String) : Prop :=
  same first.1.1 second.1.1 ∧ sent first.1.2 = sent second.1.2 ∧ first.2 = second.2

section Alike

variable {plan : Plan φ τ} {host : Host σ φ} {other : Host σ' φ} {same : σ → σ' → Prop}
  (tolerant : plan.LivesWithSetbacks) (alike : plan.Alike host other same)

include tolerant alike

theorem Plan.Alike.tick_outcome (opened : τ) (cursor : String) {s : σ} {t : σ'} (h : same s t) :
    ((plan.tick opened cursor).run.run host.toSurroundings s).1 =
        ((plan.tick opened cursor).run.run other.toSurroundings t).1 ∧
      sent ((plan.tick opened cursor).run.events host.toSurroundings s) =
        sent ((plan.tick opened cursor).run.events other.toSurroundings t) := by
  have hfirst := (plan.tick opened cursor).run.transcript_events host.toSurroundings s
  have hsecond := (plan.tick opened cursor).run.transcript_events other.toSurroundings t
  rcases (alike.tick opened cursor h).1 with hevents | ⟨hsetback, hidle⟩
  · rw [hevents] at hfirst ⊢
    exact ⟨hfirst.outcome_unique hsecond, rfl⟩
  · obtain ⟨houtcome, hsent⟩ := tolerant opened cursor _ _ hfirst
      (hsetback.imp fun event h => ⟨h.1, .inl h.2⟩)
    obtain ⟨hother, hnone⟩ := tolerant opened cursor _ _ hsecond
      (hidle.imp fun event h => ⟨h.1, .inr h.2⟩)
    exact ⟨houtcome.trans hother.symm, hsent.trans hnone.symm⟩

theorem Plan.Alike.check (opened : τ) {s : σ} {t : σ'} {before after : List (Event φ)}
    (cursor : String) (h : same s t) (seen : sent before = sent after) :
    ((plan.poller host.recorded opened).check ((s, before), cursor)).1 =
        ((plan.poller other.recorded opened).check ((t, after), cursor)).1 ∧
      Beside same ((plan.poller host.recorded opened).check ((s, before), cursor)).2
        ((plan.poller other.recorded opened).check ((t, after), cursor)).2 := by
  obtain ⟨houtcome, hsent⟩ := alike.tick_outcome tolerant opened cursor h
  have hstate := (alike.tick opened cursor h).2
  have hfirst : (plan.tick opened cursor).run.run host.recorded.toSurroundings (s, before) = _ :=
    (plan.tick opened cursor).run.run_recorded_append host.toSurroundings s before
  have hsecond : (plan.tick opened cursor).run.run other.recorded.toSurroundings (t, after) = _ :=
    (plan.tick opened cursor).run.run_recorded_append other.toSurroundings t after
  have hseen : sent (before ++ (plan.tick opened cursor).run.events host.toSurroundings s) =
      sent (after ++ (plan.tick opened cursor).run.events other.toSurroundings t) := by
    rw [sent_append, sent_append, seen, hsent]
  simp only [Plan.poller, hfirst, hsecond, houtcome]
  rcases ((plan.tick opened cursor).run.run other.toSurroundings t).1 with _ | status | next
  · exact ⟨rfl, hstate, hseen, rfl⟩
  · exact ⟨rfl, hstate, hseen, rfl⟩
  · exact ⟨rfl, hstate, hseen, rfl⟩

/-- The reader of a stream cannot tell setbacks from finding nothing new. -/
theorem Plan.run_alike (fuel : Nat) {s : σ} {t : σ'} (h : same s t) :
    let first := plan.run host.recorded fuel (s, [])
    let second := plan.run other.recorded fuel (t, [])
    first.1 = second.1 ∧ Beside same first.2 second.2 := by
  obtain ⟨hevents, hstate⟩ := alike.opening h
  have hfirst : plan.opening.run.run host.recorded.toSurroundings (s, []) = _ :=
    plan.opening.run.run_recorded_append host.toSurroundings s []
  have hsecond : plan.opening.run.run other.recorded.toSurroundings (t, []) = _ :=
    plan.opening.run.run_recorded_append other.toSurroundings t []
  have houtcome : (plan.opening.run.run host.toSurroundings s).1 =
      (plan.opening.run.run other.toSurroundings t).1 := by
    have hopening := plan.opening.run.transcript_events host.toSurroundings s
    rw [hevents] at hopening
    exact hopening.outcome_unique (plan.opening.run.transcript_events other.toSurroundings t)
  simp only [Plan.run, hfirst, hsecond, houtcome, hevents]
  rcases (plan.opening.run.run other.toSurroundings t).1 with _ | status | opened
  · exact ⟨rfl, hstate, rfl, rfl⟩
  · exact ⟨rfl, hstate, rfl, rfl⟩
  · have hbegin : Beside same
        (host.recorded.start plan.maxAge ((plan.opening.run.run host.toSurroundings s).2,
          [] ++ plan.opening.run.events other.toSurroundings t), plan.cursor)
        (other.recorded.start plan.maxAge ((plan.opening.run.run other.toSurroundings t).2,
          [] ++ plan.opening.run.events other.toSurroundings t), plan.cursor) :=
      ⟨alike.start hstate, rfl, rfl⟩
    have hloop := Polling.Poller.run_related (plan.poller host.recorded opened)
      (plan.poller other.recorded opened) (Beside same)
      (fun hbeside => alike.stopped hbeside.1) ?_ ?_ fuel hbegin
    · exact ⟨congrArg (Option.map result) hloop.1, hloop.2⟩
    · rintro ⟨⟨u, before⟩, cursor⟩ ⟨⟨v, after⟩, _⟩ ⟨hsame, hseen, rfl⟩
      exact alike.check tolerant opened cursor hsame hseen
    · rintro ⟨⟨u, before⟩, cursor⟩ ⟨⟨v, after⟩, _⟩ ⟨hsame, hseen, rfl⟩
      obtain ⟨hpassed, hpaused⟩ := alike.pause hsame
      exact ⟨hpassed, hpaused, hseen, rfl⟩

end Alike

end ManifestRelay.Session
