import Mathlib
import ManifestRelay.Proofs.Session.Framing
import ManifestRelay.Rehearsal.SessionTrial

/-!
# Turns that are broken off

A stream that ends well may have been cut short while it waited.  If it waited
for a walk of the turn's commit, or for room for one of the turn's frames, the
turn is broken off; there is no other way to leave a turn incomplete without a
failure.
-/

namespace ManifestRelay.Session

open Fetch Metadata Relay Turn
open ManifestRelay.Stream

/-- What the turn of a commit waits for when its headers are sent. -/
def Query.IsOfTurn (commit : String) : Query Frame → Prop
  | .visit _ _ revision _ _ => revision = commit
  | .send (.object ..) => True
  | .send .trailers => True
  | _ => False

/-- An exchange that begins quietly has sent nothing when it waits, or waits in what follows. -/
theorem Waits.after_quiet {φ α β : Type} {x : Exchange φ α} {f : α → Exchange φ β}
    {query : Query φ} {events : List (Event φ)} (quiet : x.run.Always Event.IsQuiet)
    (waits : Waits query (x >>= f).run events) :
    sent events = [] ∨ ∃ a rest, sent events = sent rest ∧ Waits query (f a).run rest := by
  rcases waits.of_exchange_bind with hfirst | ⟨a, first, rest, rfl, hfirst, hrest⟩
  · exact .inl (hfirst.transcript.quiet quiet).1
  · refine .inr ⟨a, rest, ?_, hrest⟩
    rw [sent_append, (hfirst.quiet quiet).1, List.nil_append]

theorem Waits.not_notes_return {φ α : Type} {query : Query φ} {notes : List Note} {a : α}
    {events : List (Event φ)} :
    ¬ Waits query (do Exchange.notes notes; return a : Exchange φ α).run events := by
  intro waits
  rcases waits.of_exchange_bind with hnotes | ⟨_, first, rest, -, -, hreturn⟩
  · exact Waits.not_notes hnotes
  · cases hreturn

namespace ManifestStream

def BeginsTurn (query : Query Frame) (frames : List Frame) : Prop :=
  ∃ commit rest, frames = .headers commit :: rest ∧ query.IsOfTurn commit

variable {query : Query Frame} {events : List (Event Frame)}

theorem waits_sendTurn {budget : Budget} {project : ProjectInfo} {globs : List String}
    {commit : String} (waits : Waits query (sendTurn budget project globs commit).run events) :
    sent events = [] ∨ BeginsTurn query (sent events) := by
  rcases waits.of_exchange_bind with hheaders | ⟨⟨⟩, first, rest, rfl, hheaders, hrest⟩
  · have hstops : Stops (none : Option (Except Status Unit)) := nofun
    exact .inl (hheaders.transcript.sent_of_send_stops hstops)
  refine .inr ⟨commit, sent rest, ?_, hrest.of_always ?_⟩
  · rw [sent_append, hheaders.sent_of_send]
    rfl
  have hpermits : Permits commit fun event => ∀ asked answer, event = .answered asked answer →
      asked.IsOfTurn commit := by
    constructor
    · exact fun _ _ _ _ => nofun
    · intro server repository directory recursive walk asked answer h
      cases h
      rfl
    · intro source data result asked answer h
      cases h
      trivial
  refine Exchange.always_bind (always_sendGlobs hpermits project globs _) fun _ => ?_
  refine Exchange.always_bind (Exchange.always_send ?_ fun _ _ _ _ => nofun) fun _ => ?_
  · intro result asked answer h
    cases h
    trivial
  · exact Exchange.always_notes fun _ _ _ _ => nofun

theorem waits_tick {settings : Settings} {token : AgentToken} {projectId : String}
    {globs : List String} {cursor : String}
    (waits : Waits query (tick settings token projectId globs cursor).run events) :
    sent events = [] ∨ BeginsTurn query (sent events) := by
  rcases waits.after_quiet (Exchange.quiet_project token projectId) with
    hnone | ⟨answer, rest, hsent, hrest⟩
  · exact .inl hnone
  cases answer with
  | none => cases hrest
  | some project =>
      rcases hrest.after_quiet (Exchange.always_request fun _ => ⟨rfl, rfl⟩) with
        hnone | ⟨polled, later, hlater, hpolled⟩
      · exact .inl (hsent.trans hnone)
      rw [hsent, hlater]
      match polled with
      | .error e => exact absurd hpolled Waits.not_notes_return
      | .ok ⟨false, commit⟩ => exact absurd hpolled Waits.not_notes_return
      | .ok ⟨true, commit⟩ =>
          rcases hpolled.of_exchange_bind with hlog | ⟨_, log, turn, rfl, hlog, hturn⟩
          · exact absurd hlog Waits.not_notes
          obtain ⟨-, rfl⟩ := hlog.of_notes
          rcases hturn.of_exchange_bind with hwaits | ⟨_, -, last, -, -, hlast⟩
          · have hquiet : sent ([logged .info "GitOps: new commit"].map .noted ++ turn) =
                sent turn := rfl
            rw [hquiet]
            exact waits_sendTurn hwaits
          · exact absurd hlast Waits.not_notes_return

/-- What the reader of a stream was told that has ended well, in this state of its host: a turn is
left incomplete only if the stream was cut short while it waited for something of the turn. -/
def ToldWell {σ : Type} (host : Host σ Frame) (start : String) (t : σ) (events : List (Event Frame))
    (cursor : String) : Prop :=
  ∃ complete unfinished, Told start complete unfinished events cursor ∧
    ∀ d, unfinished = some d →
      ∃ query u, query.IsOfTurn d.commit ∧ host.answer query u = (none, t)

section Well

variable {σ : Type} {host : Host σ Frame} {settings : Settings} {token : AgentToken}
  {projectId : String} {start : String}

theorem opening_leads_well {globs : List String} :
    Exchange.Leads host Event.IsHonest (opening settings token globs)
      (fun _ events => ∃ complete, Told start complete none events start)
      fun result t events => result = .ok () → ToldWell host start t events start := by
  constructor
  case ok =>
    intro events distinct _ htranscript
    exact ⟨[], .nothing (of_opening htranscript)⟩
  case failed =>
    intro events status t _ _ hok
    cases hok
  case cut =>
    intro events query u t _ hwaits _ _
    exact ⟨[], none, .nothing (of_opening hwaits.transcript), nofun⟩

theorem tick_leads_well {globs : List String} {before : List (Event Frame)} {cursor : String}
    (h : ∃ complete, Told start complete none before cursor) :
    Exchange.Leads host Event.IsHonest (tick settings token projectId globs cursor)
      (fun next events => ∃ complete, Told start complete none (before ++ events) next)
      fun result t events =>
        result = .ok () → ToldWell host start t (before ++ events) cursor := by
  obtain ⟨complete, htold⟩ := h
  constructor
  case ok =>
    intro events next hhonest htranscript
    rcases of_tick htranscript hhonest with ⟨hnext, hidle⟩ | ⟨d, hnew, hnext, hsent, hcount⟩ |
      ⟨hstops, -⟩
    · cases hnext
      exact ⟨complete, htold.idle hidle⟩
    · cases hnext
      exact ⟨_, htold.deliver hnew hsent hcount⟩
    · exact absurd rfl (hstops next)
  case failed =>
    intro events status t _ _ hok
    cases hok
  case cut =>
    intro events query u t hhonest hwaits hanswer _
    rcases of_tick hwaits.transcript hhonest with ⟨hnone, -⟩ | ⟨d, -, hnone, -⟩ |
      ⟨-, hcount, hnothing | ⟨d, hnew, hbegun⟩⟩
    · cases hnone
    · cases hnone
    · exact ⟨complete, none, htold.idle ⟨hnothing, hcount⟩, nofun⟩
    · refine ⟨complete, some d, htold.breakOff hnew hbegun hcount, fun same hsame => ?_⟩
      obtain rfl := Option.some.inj hsame
      rcases waits_tick hwaits with hnothing | ⟨commit, rest, hheaders, hquery⟩
      · rw [hbegun] at hnothing
        cases hnothing
      · rw [hbegun] at hheaders
        cases hheaders
        exact ⟨query, u, hquery, hanswer⟩

end Well

/-- A run that has ended well has left no turn incomplete, but for one that it was cut short in,
while it waited for a walk of the turn's commit or for one of the frames behind the headers. -/
theorem run_told_of_ok {σ : Type} (host : Host σ Frame)
    (honest : host.Uphold Event.IsHonest) (settings : Settings) (token : AgentToken)
    (projectId : String) (globs : List String) (commit : String) (fuel : Nat) (s : σ)
    {t : σ} {events : List (Event Frame)} {cursor : String}
    (run : (plan settings token projectId globs commit).run host.recorded fuel (s, []) =
      (some (.ok ()), (t, events), cursor)) :
    ToldWell host commit t events cursor := by
  have hled := Plan.run_leads
    (fun events cursor => ∃ complete, Told commit complete none events cursor)
    (fun result t events cursor => result = .ok () → ToldWell host commit t events cursor)
    honest (fun _ => trivial) (fun _ _ _ => tick_leads_well) opening_leads_well ?_ run
  · exact hled.2 _ rfl rfl
  · rintro t events cursor ⟨complete, htold⟩ -
    exact ⟨complete, none, htold, nofun⟩

/-- A run that is cut short before it can send the trailers of its second turn. -/
theorem run_told_of_ok_broken_off :
    ∃ (events : List (Event Frame)) (cursor : String),
      (plan default default "project" [] "none").run brokenOffHost.recorded 3 (0, []) =
        (some (.ok ()), (3, events), cursor) ∧
      sent events = [.headers "first", .trailers, .headers "second"] ∧
      ToldWell brokenOffHost "none" 3 events cursor :=
  ⟨_, _, rfl, rfl,
    run_told_of_ok brokenOffHost brokenOffHost_honest default default "project" [] "none" 3 0 rfl⟩

end ManifestStream

def briefSettings : Settings :=
  ⟨20000, 20000, 50000, 131072, 100, ⟨2097152, 1048576, 1000⟩⟩

/-- A world at the start of a stream, in which it takes time to look up agents and to walk. -/
def slowWorld (φ : Type) (timeline : List (Nat × Rehearsal.Happening)) (agent visit : Nat) :
    Rehearsal.World φ where
  now := 0
  timeline
  desk := ⟨.sample agent 0, .empty ⟨20000, 5000⟩ ⟨20000, 5000⟩⟩
  shelf := ⟨[], none, [], [], [], 0, false, none⟩
  delays := ⟨0, visit, 0⟩
  channel := .empty 64
  reader := ⟨0, 0, none, none, []⟩
  served := false
  deadline := none
  calls := []
  notes := []

namespace ManifestStream

def slowWalks : Rehearsal.World Frame :=
  slowWorld Frame [(0, .commit "R" [("a.yaml", [97])])] 0 100000

def slowWalksPlan : Plan Frame (List String) :=
  plan briefSettings ⟨"agent-token"⟩ "group/manifests" ["*.yaml"] ""

/-- A stream whose age runs out during a walk ends well between headers and trailers. -/
theorem ends_well_within_turn :
    (slowWalks.runAlone slowWalksPlan).1 = some (.ok ()) ∧
      (slowWalks.runAlone slowWalksPlan).2.reader.leftAt = none ∧
      (slowWalks.runAlone slowWalksPlan).2.channel.closed = false ∧
      (slowWalks.runAlone slowWalksPlan).2.channel.buffer = [] ∧
      (slowWalks.runAlone slowWalksPlan).2.reader.items = [(0, .ok (.headers "R"))] := by
  refine ⟨by cbv, by cbv, by cbv, by cbv, by cbv⟩

end ManifestStream

end ManifestRelay.Session
