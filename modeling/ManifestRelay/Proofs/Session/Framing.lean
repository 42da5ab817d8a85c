import Mathlib.Data.List.Chain
import ManifestRelay.Proofs.Session.Sending

/-!
# Turns on the wire

What a stream of manifests sends is one complete turn after another, and then
perhaps the beginning of a turn that it could not complete.  Every turn is of a
commit other than the one before, and as many deliveries are counted as there
are complete turns.  This holds wherever the stream is cut short, whatever the
metadata service, the repository and the peer do.
-/

namespace ManifestRelay

open Fetch Metadata Relay Turn
open ManifestRelay.Stream

namespace Turn

structure Delivery where
  commit : String
  pieces : List (String × List UInt8)

namespace Delivery

/-- The frames of a turn before its trailers. -/
def begun (d : Delivery) : List Frame :=
  .headers d.commit :: d.pieces.map fun (source, data) => .object source data

def frames (d : Delivery) : List Frame := d.begun ++ [.trailers]

theorem trailers_notMem_begun (d : Delivery) : .trailers ∉ d.begun := by
  intro h
  rcases List.mem_cons.1 h with hheaders | hpiece
  · cases hheaders
  · obtain ⟨piece, -, hobject⟩ := List.mem_map.1 hpiece
    cases hobject

theorem count_begun (d : Delivery) : d.begun.count .trailers = 0 :=
  List.count_eq_zero.2 d.trailers_notMem_begun

theorem count_frames (d : Delivery) : d.frames.count .trailers = 1 := by
  rw [frames, List.count_append, count_begun]
  rfl

end Delivery

end Turn

namespace Session

/-- A poll tells of an update exactly if its commit is not the last one seen. -/
def Event.IsHonest {φ : Type} : Event φ → Prop
  | .answered (.poll _ _ last _) (.ok info) => info.updateAvailable = (info.commit != last)
  | _ => True

namespace ManifestStream

/-! ### Turns and ticks -/

/-- A turn is sent, or the exchange stops after a part of it at most. -/
theorem of_sendTurn {budget : Budget} {project : ProjectInfo} {globs : List String}
    {commit : String} {events : List (Event Frame)} {outcome : Option (Except Status Unit)}
    (transcript : Transcript (sendTurn budget project globs commit).run events outcome) :
    deliveries events = 0 ∧
      ((outcome = some (.ok ()) ∧ ∃ d : Delivery, d.commit = commit ∧ sent events = d.frames) ∨
        (Stops outcome ∧
          (sent events = [] ∨ ∃ d : Delivery, d.commit = commit ∧ sent events = d.begun))) := by
  rcases transcript.stops_or_goes_on with ⟨hstops, earlier, hearlier, hheaders⟩ |
    ⟨⟨⟩, first, rest, rfl, hheaders, hrest⟩
  · exact ⟨hheaders.of_send.1, .inr ⟨hstops, .inl (hheaders.sent_of_send_stops hearlier)⟩⟩
  have hpieces : ∀ {selected middle}, Transcript (sendGlobs project commit globs
      (.ofBudget budget)).run middle selected → ∃ d : Delivery, d.commit = commit ∧
      sent (first ++ middle) = d.begun ∧ deliveries (first ++ middle) = 0 := by
    intro selected middle hmiddle
    have hall := hmiddle.of_always (always_sendGlobs permits_pieces project globs _)
    obtain ⟨pieces, hsent⟩ := sent_of_pieces hall
    refine ⟨⟨commit, pieces⟩, rfl, ?_, ?_⟩
    · rw [sent_append, hheaders.sent_of_send, hsent]
      rfl
    · rw [deliveries_append, hheaders.of_send.1, deliveries_eq_zero fun event h => (hall event h).2]
  rcases hrest.stops_or_goes_on with ⟨hstops, earlier, -, hmiddle⟩ |
    ⟨selection, middle, last, rfl, hmiddle, hlast⟩
  · obtain ⟨d, hcommit, hsent, hcount⟩ := hpieces hmiddle
    exact ⟨hcount, .inr ⟨hstops, .inr ⟨d, hcommit, hsent⟩⟩⟩
  obtain ⟨d, hcommit, hsent, hcount⟩ := hpieces hmiddle
  rw [← List.append_assoc, sent_append, deliveries_append, hsent, hcount, Nat.zero_add]
  rcases hlast.stops_or_goes_on with ⟨hstops, earlier, hearlier, htrailers⟩ |
    ⟨⟨⟩, trailers, logs, rfl, htrailers, hlog⟩
  · rw [htrailers.sent_of_send_stops hearlier, List.append_nil]
    exact ⟨htrailers.of_send.1, .inr ⟨hstops, .inr ⟨d, hcommit, rfl⟩⟩⟩
  · obtain ⟨rfl, rfl⟩ := hlog.of_notes
    rw [sent_append, deliveries_append, htrailers.sent_of_send, htrailers.of_send.1]
    exact ⟨rfl, .inl ⟨rfl, d, hcommit, rfl⟩⟩

theorem of_notes_return {α : Type} {notes : List Note} {a : α} {events : List (Event Frame)}
    {outcome : Option (Except Status α)} (undelivered : ∀ note ∈ notes, note ≠ .delivered)
    (transcript : Transcript (do Exchange.notes notes; return a : Exchange Frame α).run
      events outcome) :
    outcome = some (.ok a) ∧ sent events = [] ∧ deliveries events = 0 := by
  have hquiet : (Exchange.notes notes : Exchange Frame Unit).run.Always Event.IsQuiet :=
    Exchange.always_notes fun note h => Event.isQuiet_noted (undelivered note h)
  rcases transcript.stops_or_goes_on with ⟨-, earlier, hearlier, hnotes⟩ |
    ⟨_, noted, rest, rfl, hnotes, hrest⟩
  · exact absurd hnotes.of_notes.1 (hearlier ())
  · cases hrest with
    | done =>
        rw [List.append_nil]
        exact ⟨rfl, hnotes.quiet hquiet⟩

theorem of_newCommit {budget : Budget} {project : ProjectInfo} {globs : List String}
    {commit : String} {events : List (Event Frame)} {outcome : Option (Except Status String)}
    (transcript : Transcript (do
      Exchange.log .info "GitOps: new commit"
      sendTurn budget project globs commit
      Exchange.notes [.delivered]
      return commit : Exchange Frame String).run events outcome) :
    (∃ d : Delivery, d.commit = commit ∧ outcome = some (.ok commit) ∧
        sent events = d.frames ∧ deliveries events = 1) ∨
      (Stops outcome ∧ deliveries events = 0 ∧
        (sent events = [] ∨ ∃ d : Delivery, d.commit = commit ∧ sent events = d.begun)) := by
  rcases transcript.stops_or_goes_on with ⟨-, earlier, hearlier, hlog⟩ |
    ⟨_, log, rest, rfl, hlog, hlater⟩
  · exact absurd hlog.of_notes.1 (hearlier ())
  obtain ⟨-, rfl⟩ := hlog.of_notes
  rcases hlater.stops_or_goes_on with ⟨hstops, earlier, hearlier, hturn⟩ |
    ⟨_, turn, rest, rfl, hturn, hcounting⟩
  · obtain ⟨hcount, ⟨rfl, -⟩ | ⟨-, hsent⟩⟩ := of_sendTurn hturn
    · exact absurd rfl (hearlier ())
    · exact .inr ⟨hstops, hcount, hsent⟩
  obtain ⟨hcount, ⟨-, d, hcommit, hsent⟩ | ⟨hstops, -⟩⟩ := of_sendTurn hturn
  · rcases hcounting.stops_or_goes_on with ⟨-, earlier, hearlier, hnote⟩ |
      ⟨_, note, rest, rfl, hnote, hreturn⟩
    · exact absurd hnote.of_notes.1 (hearlier ())
    obtain ⟨-, rfl⟩ := hnote.of_notes
    cases hreturn with
    | done =>
        refine .inl ⟨d, hcommit, rfl, ?_, ?_⟩
        · rw [sent_append, sent_append, hsent]
          exact List.append_nil _
        · rw [deliveries_append, deliveries_append, hcount]
          rfl
  · exact absurd rfl (hstops ())

/-- A tick passes without a turn, delivers a turn of a new commit, or stops after a part of such a
turn at most. -/
theorem of_tick {settings : Settings} {token : AgentToken} {projectId : String}
    {globs : List String} {cursor : String} {events : List (Event Frame)}
    {outcome : Option (Except Status String)}
    (transcript : Transcript (tick settings token projectId globs cursor).run events outcome)
    (honest : ∀ event ∈ events, event.IsHonest) :
    (outcome = some (.ok cursor) ∧ sent events = [] ∧ deliveries events = 0) ∨
      (∃ d : Delivery, d.commit ≠ cursor ∧ outcome = some (.ok d.commit) ∧
        sent events = d.frames ∧ deliveries events = 1) ∨
      (Stops outcome ∧ deliveries events = 0 ∧
        (sent events = [] ∨ ∃ d : Delivery, d.commit ≠ cursor ∧ sent events = d.begun)) := by
  have hquiet := Exchange.quiet_project (φ := Frame) token projectId
  rcases transcript.stops_or_goes_on with ⟨hstops, earlier, -, hproject⟩ |
    ⟨answer, first, rest, rfl, hproject, hrest⟩
  · obtain ⟨hsent, hcount⟩ := hproject.quiet hquiet
    exact .inr (.inr ⟨hstops, hcount, .inl hsent⟩)
  obtain ⟨hfirst, hfirstCount⟩ := hproject.quiet hquiet
  rw [sent_append, deliveries_append, hfirst, hfirstCount, List.nil_append, Nat.zero_add]
  cases answer with
  | none =>
      cases hrest with
      | done => exact .inl ⟨rfl, rfl, rfl⟩
  | some project =>
      rcases hrest.stops_or_goes_on with ⟨hstops, earlier, -, hpoll⟩ |
        ⟨polled, poll, rest, rfl, hpoll, hpolled⟩
      · obtain ⟨hsent, hcount⟩ := hpoll.quiet (Exchange.always_request fun _ => ⟨rfl, rfl⟩)
        exact .inr (.inr ⟨hstops, hcount, .inl hsent⟩)
      obtain ⟨hpollSent, hpollCount⟩ := hpoll.quiet (Exchange.always_request fun _ => ⟨rfl, rfl⟩)
      rw [sent_append, deliveries_append, hpollSent, hpollCount, List.nil_append, Nat.zero_add]
      rcases hpoll.of_request with ⟨⟨⟩, -⟩ | ⟨_, ⟨⟩, rfl⟩
      match polled with
      | .error e => exact .inl (of_notes_return failure_ne_delivered hpolled)
      | .ok ⟨false, commit⟩ => exact .inl (of_notes_return (by simp [logged]) hpolled)
      | .ok ⟨true, commit⟩ =>
          have hnew : commit ≠ cursor := by
            have htold := honest _ (List.mem_append_right first List.mem_cons_self)
            exact bne_iff_ne.1 htold.symm
          rcases of_newCommit hpolled with ⟨d, rfl, hturn⟩ | ⟨hstops, hcount, hsent | ⟨d, rfl, hd⟩⟩
          · exact .inr (.inl ⟨d, hnew, hturn⟩)
          · exact .inr (.inr ⟨hstops, hcount, .inl hsent⟩)
          · exact .inr (.inr ⟨hstops, hcount, .inr ⟨d, hnew, hd⟩⟩)

theorem of_opening {settings : Settings} {token : AgentToken} {globs : List String}
    {events : List (Event Frame)} {outcome : Option (Except Status (List String))}
    (transcript : Transcript (opening settings token globs).run events outcome) :
    sent events = [] ∧ deliveries events = 0 := by
  refine transcript.quiet (Exchange.always_bind (Exchange.quiet_agent token false) fun _ => ?_)
  extract_lets distinct proceed
  split <;> trivial

end ManifestStream

/-! ### Runs -/

/-- What a reader was told that had the commit `start` at first. -/
structure Told (start : String) (complete : List Delivery) (unfinished : Option Delivery)
    (events : List (Event Frame)) (cursor : String) : Prop where
  frames : sent events =
    complete.flatMap Delivery.frames ++ unfinished.toList.flatMap Delivery.begun
  changing : (start :: (complete ++ unfinished.toList).map Delivery.commit).IsChain (· ≠ ·)
  counted : deliveries events = (sent events).count .trailers
  cursor : cursor = (complete.map Delivery.commit).getLastD start

namespace Told

variable {start cursor : String} {complete : List Delivery} {before events : List (Event Frame)}

theorem nothing (h : sent events = [] ∧ deliveries events = 0) :
    Told start [] none events start where
  frames := h.1
  changing := List.isChain_singleton start
  counted := by rw [h.1, h.2]; rfl
  cursor := rfl

theorem idle (told : Told start complete none before cursor)
    (h : sent events = [] ∧ deliveries events = 0) :
    Told start complete none (before ++ events) cursor where
  frames := by rw [sent_append, h.1, List.append_nil, told.frames]
  changing := told.changing
  counted := by
    rw [sent_append, deliveries_append, h.1, h.2, List.append_nil]
    exact told.counted
  cursor := told.cursor

theorem changing_concat (told : Told start complete none before cursor) {d : Delivery}
    (new : d.commit ≠ cursor) :
    (start :: (complete ++ [d]).map Delivery.commit).IsChain (· ≠ ·) := by
  have hchanging := told.changing
  rw [Option.toList_none, List.append_nil] at hchanging
  rw [List.map_append, ← List.cons_append]
  refine hchanging.append (List.isChain_singleton d.commit) ?_
  intro last hlast next hnext
  rw [List.getLast?_cons, ← List.getLastD_eq_getLast?, ← told.cursor] at hlast
  obtain rfl := Option.some.inj hlast
  obtain rfl := Option.some.inj hnext
  exact new.symm

theorem deliver (told : Told start complete none before cursor) {d : Delivery}
    (new : d.commit ≠ cursor) (hsent : sent events = d.frames) (hcount : deliveries events = 1) :
    Told start (complete ++ [d]) none (before ++ events) d.commit where
  frames := by
    rw [sent_append, hsent, told.frames, List.flatMap_append]
    simp
  changing := by
    rw [Option.toList_none, List.append_nil]
    exact told.changing_concat new
  counted := by
    rw [sent_append, deliveries_append, hsent, hcount, List.count_append, d.count_frames,
      told.counted]
  cursor := by rw [List.map_append, List.map_singleton, List.getLastD_concat]

theorem breakOff (told : Told start complete none before cursor) {d : Delivery}
    (new : d.commit ≠ cursor) (hsent : sent events = d.begun) (hcount : deliveries events = 0) :
    Told start complete (some d) (before ++ events) cursor where
  frames := by
    rw [sent_append, hsent, told.frames]
    simp
  changing := told.changing_concat new
  counted := by
    rw [sent_append, deliveries_append, hsent, hcount, List.count_append, d.count_begun,
      told.counted]
  cursor := told.cursor

end Told

/-- Wherever a run stands or ends, its reader was told of complete turns, and of the beginning of
one more at most, after which nothing is sent. -/
theorem ManifestStream.run_told {σ : Type} (host : Host σ Frame)
    (honest : host.Uphold Event.IsHonest) (settings : Settings) (token : AgentToken)
    (projectId : String) (globs : List String) (commit : String) (fuel : Nat) (s : σ)
    {result : Option (Except Status Unit)} {t : σ} {events : List (Event Frame)} {cursor : String}
    (run : (plan settings token projectId globs commit).run host.recorded fuel (s, []) =
      (result, (t, events), cursor)) :
    ∃ complete unfinished, Told commit complete unfinished events cursor ∧
      (unfinished.isSome → result.isSome) := by
  have hrun := (plan settings token projectId globs commit).run_induction host honest
    (fun _ => trivial) (fun events cursor => ∃ complete, Told commit complete none events cursor)
    (fun events cursor => ∃ complete unfinished, Told commit complete unfinished events cursor)
    ?_ ?_ ?_ fuel s
  · rw [run] at hrun
    obtain ⟨⟨complete, unfinished, htold⟩, hsteady⟩ := hrun
    cases result with
    | none =>
        obtain ⟨complete, htold⟩ := hsteady rfl
        exact ⟨complete, none, htold, nofun⟩
    | some result => exact ⟨complete, unfinished, htold, fun _ => rfl⟩
  · rintro events cursor ⟨complete, htold⟩
    exact ⟨complete, none, htold⟩
  · intro events outcome htranscript
    have htold : Told commit [] none events commit := .nothing (of_opening htranscript)
    exact ⟨⟨[], none, htold⟩, fun _ _ => ⟨[], htold⟩⟩
  · rintro opened before cursor events outcome ⟨complete, htold⟩ htranscript hhonest
    rcases of_tick htranscript hhonest with ⟨rfl, hidle⟩ | ⟨d, hnew, rfl, hsent, hcount⟩ |
      ⟨hstops, hcount, hnone | ⟨d, hnew, hbegun⟩⟩
    · refine ⟨fun next hnext => ?_, fun hstops => absurd rfl (hstops cursor)⟩
      cases hnext
      exact ⟨complete, htold.idle hidle⟩
    · refine ⟨fun next hnext => ?_, fun hstops => absurd rfl (hstops d.commit)⟩
      cases hnext
      exact ⟨_, htold.deliver hnew hsent hcount⟩
    · refine ⟨fun next hnext => absurd hnext (hstops next), fun _ => ?_⟩
      exact ⟨complete, none, htold.idle ⟨hnone, hcount⟩⟩
    · refine ⟨fun next hnext => absurd hnext (hstops next), fun _ => ?_⟩
      exact ⟨complete, some d, htold.breakOff hnew hbegun hcount⟩

/-- A host that counts the frames it lets pass, and is cut short at the fourth.  Its commit changes
when two frames have passed. -/
def brokenOffHost : Host Nat Frame where
  answer
    | .agent _, n => (some (.ok default), n)
    | .project .., n => (some (.ok default), n)
    | .poll _ _ last _, n => (some (.ok (.ofCommit (if n < 2 then "first" else "second") last)), n)
    | .file .., n => (some (.ok none), n)
    | .visit .., n => (some (.finished (.ok ())), n)
    | .send _, n => if n < 3 then (some (.ok ()), n + 1) else (none, n)
  record _ n := n
  start _ n := n
  isStopped _ := false
  pause _ n := (true, n)

theorem brokenOffHost_honest : brokenOffHost.Uphold Event.IsHonest := by
  intro query n answer h
  cases query with
  | poll server repository last name =>
      obtain rfl := Option.some.inj h
      rfl
  | agent token => trivial
  | project token id => trivial
  | file server repository revision path limit => trivial
  | visit server repository revision directory recursive => trivial
  | send frame => trivial

theorem ManifestStream.run_told_broken_off :
    ∃ (events : List (Event Frame)) (cursor : String),
      (plan default default "project" [] "none").run brokenOffHost.recorded 3 (0, []) =
        (some (.ok ()), (3, events), cursor) ∧
      sent events = [.headers "first", .trailers, .headers "second"] ∧
      ∃ complete unfinished, Told "none" complete unfinished events cursor ∧
        (unfinished.isSome → (some (.ok ()) : Option (Except Status Unit)).isSome) :=
  ⟨_, _, rfl, rfl,
    run_told brokenOffHost brokenOffHost_honest default default "project" [] "none" 3 0 rfl⟩

end Session

end ManifestRelay
