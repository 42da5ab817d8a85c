import ManifestRelay.Proofs.Session.Run
import ManifestRelay.Session.ManifestStream

/-!
# What streams send and count

Of all that happens in a dialogue the peer sees the frames that go onto the
channel, and the statistics see the deliveries that are counted.  Most parts of
a stream send and count nothing.
-/

namespace ManifestRelay.Session

open Fetch Metadata Relay
open ManifestRelay.Stream

section Events

variable {φ : Type}

def Event.sent? : Event φ → Option φ
  | .answered (.send frame) (.ok ()) => some frame
  | _ => none

def Event.isDelivery : Event φ → Bool
  | .noted .delivered => true
  | _ => false

def sent (events : List (Event φ)) : List φ := events.filterMap Event.sent?

def deliveries (events : List (Event φ)) : Nat := events.countP Event.isDelivery

theorem sent_append (first rest : List (Event φ)) : sent (first ++ rest) = sent first ++ sent rest :=
  List.filterMap_append

theorem deliveries_append (first rest : List (Event φ)) :
    deliveries (first ++ rest) = deliveries first + deliveries rest :=
  List.countP_append

def Event.IsQuiet (event : Event φ) : Prop := event.sent? = none ∧ event.isDelivery = false

theorem sent_of_quiet {events : List (Event φ)} (h : ∀ event ∈ events, event.IsQuiet) :
    sent events = [] :=
  List.filterMap_eq_nil_iff.2 fun event hevent => (h event hevent).1

theorem deliveries_eq_zero {events : List (Event φ)}
    (h : ∀ event ∈ events, event.isDelivery = false) : deliveries events = 0 := by
  rw [deliveries, List.countP_eq_zero]
  intro event hevent
  rw [h event hevent]
  exact Bool.false_ne_true

theorem Transcript.quiet {α : Type} {d : Dialogue φ α} {events : List (Event φ)}
    {outcome : Option α} (transcript : Transcript d events outcome) (quiet : d.Always Event.IsQuiet) :
    sent events = [] ∧ deliveries events = 0 :=
  ⟨sent_of_quiet (transcript.of_always quiet),
    deliveries_eq_zero fun event h => (transcript.of_always quiet event h).2⟩

theorem Event.isQuiet_noted {note : Note} (h : note ≠ .delivered) :
    (.noted note : Event φ).IsQuiet := by
  cases note with
  | delivered => exact absurd rfl h
  | log => exact ⟨rfl, rfl⟩
  | captured => exact ⟨rfl, rfl⟩

end Events

/-! ### Notes that count nothing -/

section Notes

theorem unexpected_ne_delivered {text reason : String} :
    ∀ note ∈ unexpected text reason, note ≠ .delivered := by
  simp [unexpected]

theorem failure_ne_delivered {text : String} {blame : Blame} {reason : String} :
    ∀ note ∈ Relay.failure text blame reason, note ≠ .delivered := by
  cases blame with
  | caller => exact nofun
  | user => simp [Relay.failure]
  | relay => exact unexpected_ne_delivered

theorem sendFailure_ne_delivered {text reason : String} :
    ∀ note ∈ sendFailure text reason, note ≠ .delivered := by
  simp [sendFailure]

theorem walkNotes_ne_delivered {e : FetchError} :
    ∀ note ∈ ManifestStream.walkNotes e, note ≠ .delivered := by
  unfold ManifestStream.walkNotes
  split
  · exact sendFailure_ne_delivered
  · exact failure_ne_delivered

theorem openingNotes_ne_delivered {walk : Walk} :
    ∀ note ∈ ManifestStream.openingNotes walk, note ≠ .delivered := by
  unfold ManifestStream.openingNotes
  split
  · simp [logged]
  · exact nofun

theorem notes_strict {α : Type} (j : Judgement α) : j.strict.notes = j.notes := by
  unfold Judgement.strict
  split <;> rfl

theorem judge_ne_delivered {α : Type} {text : String} {answer : Except MetadataError α} :
    ∀ note ∈ (judge text answer).notes, note ≠ .delivered := by
  unfold judge
  split
  · exact nofun
  · split
    · exact nofun
    · exact unexpected_ne_delivered

end Notes

/-! ### Exchanges -/

namespace Exchange

variable {φ α : Type}

theorem quiet_project (token : AgentToken) (id : String) :
    (Exchange.project token id : Exchange φ (Option ProjectInfo)).run.Always Event.IsQuiet := by
  refine always_bind (always_request fun _ => ⟨rfl, rfl⟩) fun answer => ?_
  exact always_accept fun note hnote => Event.isQuiet_noted (judge_ne_delivered note hnote)

theorem quiet_agent (token : AgentToken) (tolerant : Bool) :
    (Exchange.agent token tolerant : Exchange φ (Option AgentInfo)).run.Always Event.IsQuiet := by
  refine always_bind (always_request fun _ => ⟨rfl, rfl⟩) fun answer => ?_
  refine always_accept fun note hnote => Event.isQuiet_noted ?_
  cases tolerant with
  | true => exact judge_ne_delivered note hnote
  | false =>
      rw [if_neg Bool.false_ne_true, notes_strict] at hnote
      exact judge_ne_delivered note hnote

theorem always_send {p : Event φ → Prop} {text : String} {frame : φ}
    (sent : ∀ result, p (.answered (.send frame) result))
    (noted : ∀ note, note ≠ .delivered → p (.noted note)) :
    (Exchange.send text frame).run.Always p := by
  refine always_bind (always_request sent) fun answer => ?_
  cases answer with
  | ok _ => trivial
  | error e => exact always_fail (fun note hnote => noted note (sendFailure_ne_delivered note hnote)) _

end Exchange

namespace Transcript

variable {φ : Type} {text : String} {frame : φ} {events : List (Event φ)}

/-- A frame is sent, or the exchange stops. -/
theorem of_send {outcome : Option (Except Status Unit)}
    (transcript : Transcript (Exchange.send text frame).run events outcome) :
    deliveries events = 0 ∧
      ((outcome = some (.ok ()) ∧ sent events = [frame]) ∨ (Stops outcome ∧ sent events = [])) := by
  cases transcript with
  | cut => exact ⟨rfl, .inr ⟨nofun, rfl⟩⟩
  | ask answer rest =>
      match answer with
      | .ok () =>
          cases rest with
          | done => exact ⟨rfl, .inl ⟨rfl, rfl⟩⟩
      | .error e =>
          cases rest with
          | note rest =>
              cases rest with
              | done => exact ⟨rfl, .inr ⟨nofun, rfl⟩⟩

theorem sent_of_send (transcript : Transcript (Exchange.send text frame).run events (some (.ok ()))) :
    sent events = [frame] := by
  rcases transcript.of_send.2 with ⟨-, hsent⟩ | ⟨hstops, -⟩
  · exact hsent
  · exact absurd rfl (hstops ())

theorem sent_of_send_stops {outcome : Option (Except Status Unit)} (stops : Stops outcome)
    (transcript : Transcript (Exchange.send text frame).run events outcome) : sent events = [] := by
  rcases transcript.of_send.2 with ⟨hok, -⟩ | ⟨-, hsent⟩
  · exact absurd hok (stops ())
  · exact hsent

end Transcript

end ManifestRelay.Session
