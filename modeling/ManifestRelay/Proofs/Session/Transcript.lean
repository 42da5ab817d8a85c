import ManifestRelay.Session.Plan

/-!
# Transcripts of dialogues

A transcript tells what happened between a stream and its surroundings: the
answers that were given and the notes that were taken, in order.  A dialogue
has many transcripts, for it may be given any answers and cut short at any
query.
-/

namespace ManifestRelay.Session

open Relay
open ManifestRelay.Stream

inductive Event (φ : Type) where
  | answered (query : Query φ) (answer : query.Answer)
  | noted (note : Note)

variable {φ α β : Type}

/-- A dialogue may go through these events and end with this value, or with none if it is cut
short. -/
inductive Transcript : Dialogue φ α → List (Event φ) → Option α → Prop where
  | done (a : α) : Transcript (.done a) [] (some a)
  | note {note : Note} {next : Dialogue φ α} {events : List (Event φ)} {outcome : Option α}
      (rest : Transcript next events outcome) :
      Transcript (.note note next) (.noted note :: events) outcome
  | ask {query : Query φ} {next : query.Answer → Dialogue φ α} {events : List (Event φ)}
      {outcome : Option α} (answer : query.Answer) (rest : Transcript (next answer) events outcome) :
      Transcript (.ask query next) (.answered query answer :: events) outcome
  | cut {query : Query φ} {next : query.Answer → Dialogue φ α} : Transcript (.ask query next) [] none

/-- After these events a dialogue waits for the answer to a query. -/
inductive Waits (query : Query φ) : Dialogue φ α → List (Event φ) → Prop where
  | here {next : query.Answer → Dialogue φ α} : Waits query (.ask query next) []
  | note {note : Note} {next : Dialogue φ α} {events : List (Event φ)}
      (rest : Waits query next events) : Waits query (.note note next) (.noted note :: events)
  | ask {other : Query φ} {next : other.Answer → Dialogue φ α} {events : List (Event φ)}
      (answer : other.Answer) (rest : Waits query (next answer) events) :
      Waits query (.ask other next) (.answered other answer :: events)

/-- Whatever happens in a dialogue has a property. -/
def Dialogue.Always (p : Event φ → Prop) : Dialogue φ α → Prop
  | .done _ => True
  | .note n next => p (.noted n) ∧ next.Always p
  | .ask query next => ∀ answer, p (.answered query answer) ∧ (next answer).Always p

theorem Dialogue.Always.bind {p : Event φ → Prop} {d : Dialogue φ α} {f : α → Dialogue φ β}
    (first : d.Always p) (later : ∀ a, (f a).Always p) : (d.bind f).Always p := by
  induction d with
  | done a => exact later a
  | note note next ih => exact ⟨first.1, ih first.2⟩
  | ask query next ih => exact fun answer => ⟨(first answer).1, ih answer (first answer).2⟩

theorem Dialogue.always_notes {p : Event φ → Prop} {notes : List Note}
    (h : ∀ note ∈ notes, p (.noted note)) : (Dialogue.notes notes).Always p := by
  induction notes with
  | nil => trivial
  | cons note rest ih =>
      exact ⟨h note List.mem_cons_self, ih fun other hother => h other (.tail note hother)⟩

/-- An exchange that has been cut short or has ended its stream does not go on. -/
def Stops (outcome : Option (Except Status α)) : Prop := ∀ a, outcome ≠ some (.ok a)

namespace Transcript

variable {events : List (Event φ)}

theorem of_always {p : Event φ → Prop} {d : Dialogue φ α} {outcome : Option α}
    (transcript : Transcript d events outcome) (always : d.Always p) : ∀ event ∈ events, p event := by
  induction transcript with
  | done a => exact nofun
  | note rest ih =>
      intro event hevent
      rcases List.mem_cons.1 hevent with rfl | hrest
      · exact always.1
      · exact ih always.2 event hrest
  | ask answer rest ih =>
      intro event hevent
      rcases List.mem_cons.1 hevent with rfl | hrest
      · exact (always answer).1
      · exact ih (always answer).2 event hrest
  | cut => exact nofun

/-- A dialogue in two parts is cut short in the first, or goes through both. -/
theorem of_bind {d : Dialogue φ α} {f : α → Dialogue φ β} {outcome : Option β}
    (transcript : Transcript (d.bind f) events outcome) :
    (outcome = none ∧ Transcript d events none) ∨
      ∃ a first rest, events = first ++ rest ∧ Transcript d first (some a) ∧
        Transcript (f a) rest outcome := by
  induction d generalizing events with
  | done a => exact .inr ⟨a, [], events, rfl, .done a, transcript⟩
  | note note next ih =>
      cases transcript with
      | note rest =>
          rcases ih rest with ⟨rfl, hcut⟩ | ⟨a, first, last, rfl, hfirst, hlast⟩
          · exact .inl ⟨rfl, .note hcut⟩
          · exact .inr ⟨a, _, last, rfl, .note hfirst, hlast⟩
  | ask query next ih =>
      cases transcript with
      | ask answer rest =>
          rcases ih answer rest with ⟨rfl, hcut⟩ | ⟨a, first, last, rfl, hfirst, hlast⟩
          · exact .inl ⟨rfl, .ask answer hcut⟩
          · exact .inr ⟨a, _, last, rfl, .ask answer hfirst, hlast⟩
      | cut => exact .inl ⟨rfl, .cut⟩

theorem of_exchange_bind {x : Exchange φ α} {f : α → Exchange φ β}
    {outcome : Option (Except Status β)} (transcript : Transcript (x >>= f).run events outcome) :
    (outcome = none ∧ Transcript x.run events none) ∨
      (∃ status, outcome = some (.error status) ∧
        Transcript x.run events (some (.error status))) ∨
      ∃ a first rest, events = first ++ rest ∧ Transcript x.run first (some (.ok a)) ∧
        Transcript (f a).run rest outcome := by
  rcases of_bind transcript with ⟨rfl, hcut⟩ | ⟨result, first, rest, rfl, hfirst, hrest⟩
  · exact .inl ⟨rfl, hcut⟩
  · cases result with
    | error status =>
        cases hrest with
        | done => exact .inr (.inl ⟨status, rfl, by rwa [List.append_nil]⟩)
    | ok a => exact .inr (.inr ⟨a, first, rest, rfl, hfirst, hrest⟩)

/-- An exchange in two parts stops in the first, or goes through both. -/
theorem stops_or_goes_on {x : Exchange φ α} {f : α → Exchange φ β}
    {outcome : Option (Except Status β)} (transcript : Transcript (x >>= f).run events outcome) :
    (Stops outcome ∧ ∃ earlier, Stops earlier ∧ Transcript x.run events earlier) ∨
      ∃ a first rest, events = first ++ rest ∧ Transcript x.run first (some (.ok a)) ∧
        Transcript (f a).run rest outcome := by
  rcases transcript.of_exchange_bind with ⟨rfl, hcut⟩ | ⟨status, rfl, hfailed⟩ | hboth
  · exact .inl ⟨nofun, none, nofun, hcut⟩
  · exact .inl ⟨nofun, some (.error status), nofun, hfailed⟩
  · exact .inr hboth

theorem of_lift {d : Dialogue φ α} {outcome : Option (Except Status α)}
    (transcript : Transcript (ExceptT.lift d : Exchange φ α).run events outcome) :
    (outcome = none ∧ Transcript d events none) ∨
      ∃ a, outcome = some (.ok a) ∧ Transcript d events (some a) := by
  have hbind : Transcript (d.bind fun a => .done (.ok a)) events outcome := transcript
  rcases hbind.of_bind with hcut | ⟨a, first, rest, rfl, hfirst, hrest⟩
  · exact .inl hcut
  · cases hrest
    rw [List.append_nil]
    exact .inr ⟨a, rfl, hfirst⟩

theorem of_request {query : Query φ} {outcome : Option (Except Status query.Answer)}
    (transcript : Transcript (Exchange.request query).run events outcome) :
    (outcome = none ∧ events = []) ∨
      ∃ answer, outcome = some (.ok answer) ∧ events = [.answered query answer] := by
  cases transcript with
  | ask answer rest =>
      cases rest with
      | done => exact .inr ⟨answer, rfl, rfl⟩
  | cut => exact .inl ⟨rfl, rfl⟩

theorem of_notes {notes : List Note} {outcome : Option (Except Status Unit)}
    (transcript : Transcript (Exchange.notes notes).run events outcome) :
    outcome = some (.ok ()) ∧ events = notes.map .noted := by
  induction notes generalizing events with
  | nil =>
      cases transcript with
      | done => exact ⟨rfl, rfl⟩
  | cons note notes ih =>
      cases transcript with
      | note rest =>
          obtain ⟨rfl, rfl⟩ := ih rest
          exact ⟨rfl, rfl⟩

end Transcript

namespace Waits

variable {query : Query φ} {events : List (Event φ)}

theorem transcript {d : Dialogue φ α} (waits : Waits query d events) : Transcript d events none := by
  induction waits with
  | here => exact .cut
  | note rest ih => exact .note ih
  | ask answer rest ih => exact .ask answer ih

theorem of_bind {d : Dialogue φ α} {f : α → Dialogue φ β} (waits : Waits query (d.bind f) events) :
    Waits query d events ∨ ∃ a first rest, events = first ++ rest ∧ Transcript d first (some a) ∧
      Waits query (f a) rest := by
  induction d generalizing events with
  | done a => exact .inr ⟨a, [], events, rfl, .done a, waits⟩
  | note note next ih =>
      cases waits with
      | note rest =>
          rcases ih rest with hfirst | ⟨a, first, last, rfl, hfirst, hlast⟩
          · exact .inl (.note hfirst)
          · exact .inr ⟨a, _, last, rfl, .note hfirst, hlast⟩
  | ask other next ih =>
      cases waits with
      | here => exact .inl .here
      | ask answer rest =>
          rcases ih answer rest with hfirst | ⟨a, first, last, rfl, hfirst, hlast⟩
          · exact .inl (.ask answer hfirst)
          · exact .inr ⟨a, _, last, rfl, .ask answer hfirst, hlast⟩

theorem of_exchange_bind {x : Exchange φ α} {f : α → Exchange φ β}
    (waits : Waits query (x >>= f).run events) :
    Waits query x.run events ∨ ∃ a first rest, events = first ++ rest ∧
      Transcript x.run first (some (.ok a)) ∧ Waits query (f a).run rest := by
  rcases waits.of_bind with hfirst | ⟨result, first, rest, rfl, hfirst, hrest⟩
  · exact .inl hfirst
  · cases result with
    | error status => cases hrest
    | ok a => exact .inr ⟨a, first, rest, rfl, hfirst, hrest⟩

theorem not_notes {notes : List Note} : ¬ Waits query (Exchange.notes notes).run events :=
  fun waits => absurd waits.transcript.of_notes.1 nofun

theorem of_always {p : Query φ → Prop} {d : Dialogue φ α} (waits : Waits query d events)
    (always : d.Always fun event => ∀ asked answer, event = .answered asked answer → p asked) :
    p query := by
  induction waits with
  | @here next =>
      have hanswer : Nonempty query.Answer := by
        cases query with
        | visit => exact ⟨.finished (.ok ())⟩
        | agent => exact ⟨.ok default⟩
        | project => exact ⟨.ok default⟩
        | poll => exact ⟨.ok default⟩
        | file => exact ⟨.ok none⟩
        | send => exact ⟨.ok ()⟩
      obtain ⟨answer⟩ := hanswer
      exact (always answer).1 query answer rfl
  | note rest ih => exact ih always.2
  | ask answer rest ih => exact ih (always answer).2

end Waits

namespace Exchange

variable {p : Event φ → Prop}

theorem always_bind {x : Exchange φ α} {f : α → Exchange φ β} (first : x.run.Always p)
    (later : ∀ a, (f a).run.Always p) : (x >>= f).run.Always p := by
  refine first.bind fun result => ?_
  cases result with
  | ok a => exact later a
  | error status => trivial

theorem always_request {query : Query φ} (h : ∀ answer, p (.answered query answer)) :
    (Exchange.request query).run.Always p := fun answer => ⟨h answer, trivial⟩

theorem always_notes {notes : List Note} (h : ∀ note ∈ notes, p (.noted note)) :
    (Exchange.notes notes).run.Always p :=
  (Dialogue.always_notes h).bind fun _ => trivial

theorem always_fail {notes : List Note} (h : ∀ note ∈ notes, p (.noted note)) (status : Status) :
    (Exchange.fail notes status : Exchange φ α).run.Always p :=
  always_bind (always_notes h) fun _ => trivial

theorem always_accept {j : Judgement α} (h : ∀ note ∈ j.notes, p (.noted note)) :
    (Exchange.accept j : Exchange φ (Option α)).run.Always p := by
  refine always_bind (always_notes h) fun _ => ?_
  cases j.result with
  | ok answer => trivial
  | error status => trivial

end Exchange

end ManifestRelay.Session
