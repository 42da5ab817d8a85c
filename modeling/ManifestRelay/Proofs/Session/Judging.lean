import ManifestRelay.Proofs.Session.Transcript

/-!
# Lookups in dialogues

A lookup is one question and a judgement of its answer.  What the stream makes
of the answer is decided by the answer alone.
-/

namespace ManifestRelay.Session

open Metadata Relay
open ManifestRelay.Stream

theorem judge_refused {α : Type} {text : String} {e : MetadataError} {status : Status}
    (h : refusal e = some status) : judge text (.error e : Except _ α) = ⟨[], .error status⟩ := by
  rw [judge, h]

theorem judge_unknown {α : Type} {text : String} {e : MetadataError} (h : refusal e = none) :
    judge text (.error e : Except _ α) = ⟨unexpected text e.message, .ok none⟩ := by
  rw [judge, h]

variable {φ α : Type} {query : Query φ} {events : List (Event φ)}

namespace Transcript

theorem of_accept {j : Judgement α} {outcome : Option (Except Status (Option α))}
    (transcript : Transcript (Exchange.accept j : Exchange φ (Option α)).run events outcome) :
    events = j.notes.map .noted ∧ outcome = some j.result := by
  rcases transcript.of_exchange_bind with ⟨-, hcut⟩ | ⟨_, -, hfailed⟩ |
    ⟨_, first, rest, rfl, hnotes, hrest⟩
  · cases hcut.of_notes.1
  · cases hfailed.of_notes.1
  · obtain ⟨-, rfl⟩ := hnotes.of_notes
    split at hrest
    · next hresult =>
      cases hrest
      exact ⟨List.append_nil _, by rw [hresult]⟩
    · next hresult =>
      cases hrest
      exact ⟨List.append_nil _, by rw [hresult]⟩

/-- A question with a judgement of its answer is cut short, or the answer decides. -/
theorem of_judged {f : query.Answer → Judgement α} {outcome : Option (Except Status (Option α))}
    (transcript : Transcript
      (do Exchange.accept (f (← Exchange.request query)) : Exchange φ (Option α)).run events outcome) :
    (outcome = none ∧ events = []) ∨
      ∃ answer, events = .answered query answer :: (f answer).notes.map .noted ∧
        outcome = some (f answer).result := by
  rcases transcript.of_exchange_bind with ⟨rfl, hcut⟩ | ⟨_, -, hfailed⟩ |
    ⟨answer, _, rest, rfl, hasked, hjudged⟩
  · rcases hcut.of_request with ⟨-, rfl⟩ | ⟨_, ⟨⟩, -⟩
    exact .inl ⟨rfl, rfl⟩
  · rcases hfailed.of_request with ⟨⟨⟩, -⟩ | ⟨_, ⟨⟩, -⟩
  · rcases hasked.of_request with ⟨⟨⟩, -⟩ | ⟨_, ⟨⟩, rfl⟩
    obtain ⟨rfl, rfl⟩ := hjudged.of_accept
    exact .inr ⟨answer, rfl, rfl⟩

theorem of_agent {token : AgentToken} {outcome : Option (Except Status (Option AgentInfo))}
    (transcript : Transcript (Exchange.agent token true : Exchange φ (Option AgentInfo)).run events
      outcome) :
    (outcome = none ∧ events = []) ∨
      ∃ answer, events = .answered (.agent token) answer :: (judgeAgent answer).notes.map .noted ∧
        outcome = some (judgeAgent answer).result :=
  transcript.of_judged

theorem of_project {token : AgentToken} {id : String}
    {outcome : Option (Except Status (Option ProjectInfo))}
    (transcript : Transcript (Exchange.project token id : Exchange φ (Option ProjectInfo)).run events
      outcome) :
    (outcome = none ∧ events = []) ∨
      ∃ answer, events = .answered (.project token id) answer ::
          (judgeProject answer).notes.map .noted ∧
        outcome = some (judgeProject answer).result :=
  transcript.of_judged

theorem of_send_some {text : String} {frame : φ} {outcome : Except Status Unit}
    (transcript : Transcript (Exchange.send text frame).run events (some outcome)) :
    (events = [.answered (.send frame) (.ok ())] ∧ outcome = .ok ()) ∨
      ∃ e, events = .answered (.send frame) (.error e) :: (sendFailure text e.message).map .noted ∧
        outcome = .error Exchange.sendFailed := by
  cases transcript with
  | ask answer rest =>
      match answer with
      | .ok () =>
          cases rest
          exact .inl ⟨rfl, rfl⟩
      | .error e =>
          cases rest with
          | note rest =>
              cases rest
              exact .inr ⟨e, rfl, rfl⟩

theorem of_notes_return {notes : List Note} {a : α} {outcome : Except Status α}
    (transcript : Transcript (do Exchange.notes notes; return a : Exchange φ α).run events
      (some outcome)) : events = notes.map .noted ∧ outcome = .ok a := by
  rcases transcript.of_exchange_bind with ⟨⟨⟩, -⟩ | ⟨_, -, hfailed⟩ |
    ⟨_, first, rest, rfl, hnotes, hreturn⟩
  · cases hfailed.of_notes.1
  · obtain ⟨-, rfl⟩ := hnotes.of_notes
    cases hreturn
    exact ⟨List.append_nil _, rfl⟩

end Transcript

namespace Waits

theorem of_request {other : Query φ} (waits : Waits query (Exchange.request other).run events) :
    query = other ∧ events = [] := by
  cases waits with
  | here => exact ⟨rfl, rfl⟩
  | ask answer rest => cases rest

theorem not_accept {j : Judgement α} :
    ¬ Waits query (Exchange.accept j : Exchange φ (Option α)).run events := by
  intro waits
  rcases waits.of_exchange_bind with hnotes | ⟨_, first, rest, -, -, hrest⟩
  · exact Waits.not_notes hnotes
  · split at hrest <;> cases hrest

theorem of_judged {other : Query φ} {f : other.Answer → Judgement α}
    (waits : Waits query
      (do Exchange.accept (f (← Exchange.request other)) : Exchange φ (Option α)).run events) :
    query = other ∧ events = [] := by
  rcases waits.of_exchange_bind with hfirst | ⟨answer, first, rest, -, -, hrest⟩
  · exact hfirst.of_request
  · exact absurd hrest not_accept

theorem of_agent {token : AgentToken} {tolerant : Bool}
    (waits : Waits query
      (Exchange.agent token tolerant : Exchange φ (Option AgentInfo)).run events) :
    query = .agent token ∧ events = [] := by
  cases tolerant with
  | true => exact waits.of_judged
  | false => exact waits.of_judged

theorem of_send {text : String} {frame : φ}
    (waits : Waits query (Exchange.send text frame).run events) :
    query = .send frame ∧ events = [] := by
  rcases waits.of_exchange_bind with hfirst | ⟨answer, first, rest, -, -, hrest⟩
  · exact hfirst.of_request
  · cases answer with
    | ok _ => cases hrest
    | error e =>
        rcases hrest.of_exchange_bind with hnotes | ⟨_, _, _, -, -, hthrow⟩
        · exact absurd hnotes not_notes
        · cases hthrow

end Waits

end ManifestRelay.Session
