import ManifestRelay.Proofs.Session.Framing
import ManifestRelay.Proofs.Session.Interruption
import ManifestRelay.Proofs.Session.Judging
import ManifestRelay.Proofs.Session.Ticks
import ManifestRelay.Session.ConfigurationStream

/-!
# Commits that are settled

A tick of the stream of configurations settles a commit by sending its
configuration or by finding its users to blame.  Every other tick leaves the
cursor where it is.  So a commit that stays the head of its repository is
settled at most once, and tried again until it is.
-/

namespace ManifestRelay.Session

open Fetch Metadata Relay
open ManifestRelay.Configuration
open ManifestRelay.Stream
open ManifestRelay.Wire (ConfigurationResponse)

namespace ConfigurationStream

/-! ### Ticks -/

@[reducible] def headQuery (agent : AgentInfo) (cursor : String) : Query ConfigurationResponse :=
  .poll agent.server agent.repository cursor ""

@[reducible] def fileQuery (settings : Settings) (agent : AgentInfo) (commit : String) :
    Query ConfigurationResponse :=
  .file agent.server agent.repository commit (filePath agent.name) settings.maxConfigurationSize

/-- What happens until a tick has learned of a new commit. -/
def toldOf (token : AgentToken) (cursor : String) (agent : AgentInfo) (commit : String) :
    List (Event ConfigurationResponse) :=
  [.answered (.agent token) (.ok agent), .answered (headQuery agent cursor) (.ok ⟨true, commit⟩),
    .noted (logged .info "Config: new commit")]

/-- What can happen in a tick, and how the tick ends then. -/
inductive Passes (settings : Settings) (token : AgentToken) (cursor : String) :
    List (Event ConfigurationResponse) → Tick.Ending ConfigurationResponse → Prop where
  | lookupCut : Passes settings token cursor [] (.cut (.agent token))
  | refused {e : MetadataError} {status : Status} (h : refusal e = some status) :
      Passes settings token cursor [.answered (.agent token) (.error e)] (.failed status)
  | unknown {e : MetadataError} (h : refusal e = none) :
      Passes settings token cursor
        (.answered (.agent token) (.error e) :: (unexpected "GetAgentInfo()" e.message).map .noted)
        (.reached cursor)
  | pollCut {agent : AgentInfo} :
      Passes settings token cursor [.answered (.agent token) (.ok agent)]
        (.cut (headQuery agent cursor))
  | pollFailed {agent : AgentInfo} {e : FetchError} :
      Passes settings token cursor
        (.answered (.agent token) (.ok agent) :: .answered (headQuery agent cursor) (.error e) ::
          (fetchFailure "Config: repository poll failed" e).map .noted)
        (.reached cursor)
  | current {agent : AgentInfo} {commit : String} :
      Passes settings token cursor
        [.answered (.agent token) (.ok agent),
          .answered (headQuery agent cursor) (.ok ⟨false, commit⟩),
          .noted (logged .debug "Config: no updates")]
        (.reached cursor)
  | fileCut {agent : AgentInfo} {commit : String} :
      Passes settings token cursor (toldOf token cursor agent commit)
        (.cut (fileQuery settings agent commit))
  | obstacle {agent : AgentInfo} {commit : String} {fetched : Except FetchError (Option (List UInt8))}
      {o : Obstacle} (h : configurationOf (filePath agent.name) fetched = .error o) :
      Passes settings token cursor
        (toldOf token cursor agent commit ++ .answered (fileQuery settings agent commit) fetched ::
          (o.notes "Config: failed to fetch").map .noted)
        (.reached (if o.isUserError then commit else cursor))
  | sendCut {agent : AgentInfo} {commit : String} {fetched : Except FetchError (Option (List UInt8))}
      {configuration : AgentConfiguration}
      (h : configurationOf (filePath agent.name) fetched = .ok configuration) :
      Passes settings token cursor
        (toldOf token cursor agent commit ++ [.answered (fileQuery settings agent commit) fetched])
        (.cut (.send ⟨some configuration, commit⟩))
  | sendFailed {agent : AgentInfo} {commit : String}
      {fetched : Except FetchError (Option (List UInt8))} {configuration : AgentConfiguration}
      {e : SendError} (h : configurationOf (filePath agent.name) fetched = .ok configuration) :
      Passes settings token cursor
        (toldOf token cursor agent commit ++ .answered (fileQuery settings agent commit) fetched ::
          .answered (.send ⟨some configuration, commit⟩) (.error e) ::
          (sendFailure "Config: failed to send config" e.message).map .noted)
        (.failed Exchange.sendFailed)
  | sent {agent : AgentInfo} {commit : String} {fetched : Except FetchError (Option (List UInt8))}
      {configuration : AgentConfiguration}
      (h : configurationOf (filePath agent.name) fetched = .ok configuration) :
      Passes settings token cursor
        (toldOf token cursor agent commit ++ [.answered (fileQuery settings agent commit) fetched,
          .answered (.send ⟨some configuration, commit⟩) (.ok ())])
        (.reached commit)

section Inversion

variable {settings : Settings} {token : AgentToken} {cursor : String}
  {events : List (Event ConfigurationResponse)}

def endingOf : Except Status String → Tick.Ending ConfigurationResponse
  | .ok next => .reached next
  | .error status => .failed status

section Sending

variable {agent : AgentInfo} {commit : String} {fetched : Except FetchError (Option (List UInt8))}
  {configuration : AgentConfiguration}
  (usable : configurationOf (filePath agent.name) fetched = .ok configuration)

include usable

theorem passes_of_send {outcome : Except Status String}
    (transcript : Transcript (do
      Exchange.send "Config: failed to send config" ⟨some configuration, commit⟩
      return commit : Exchange ConfigurationResponse String).run events (some outcome)) :
    Passes settings token cursor
      (toldOf token cursor agent commit ++ .answered (fileQuery settings agent commit) fetched :: events)
      (endingOf outcome) := by
  rcases transcript.of_exchange_bind with ⟨⟨⟩, -⟩ | ⟨status, ⟨⟩, hfailed⟩ |
    ⟨_, sending, rest, rfl, hsent, hreturn⟩
  · obtain ⟨rfl, ⟨⟩⟩ | ⟨e, rfl, hstatus⟩ := hfailed.of_send_some
    cases hstatus
    exact .sendFailed usable
  · obtain ⟨rfl, -⟩ | ⟨e, -, ⟨⟩⟩ := hsent.of_send_some
    cases hreturn
    exact .sent usable

theorem passes_of_waits_send {query : Query ConfigurationResponse}
    (waits : Waits query (do
      Exchange.send "Config: failed to send config" ⟨some configuration, commit⟩
      return commit : Exchange ConfigurationResponse String).run events) :
    Passes settings token cursor
      (toldOf token cursor agent commit ++ .answered (fileQuery settings agent commit) fetched :: events)
      (.cut query) := by
  rcases waits.of_exchange_bind with hsend | ⟨_, _, _, -, -, hreturn⟩
  · obtain ⟨rfl, rfl⟩ := hsend.of_send
    exact .sendCut usable
  · cases hreturn

end Sending

/-- A tick that is not cut short passes in one of the ways that a tick can. -/
theorem passes_of_transcript {outcome : Except Status String}
    (transcript : Transcript (tick settings token cursor).run events (some outcome)) :
    Passes settings token cursor events (endingOf outcome) := by
  rcases transcript.of_exchange_bind with ⟨⟨⟩, -⟩ | ⟨status, ⟨⟩, hrefused⟩ |
    ⟨found, _, afterAgent, rfl, hagent, hfound⟩
  case inr.inl =>
    obtain ⟨⟨⟩, -⟩ | ⟨answer, rfl, houtcome⟩ := hrefused.of_agent
    cases answer with
    | ok agent => cases houtcome
    | error e =>
        cases hrefusal : refusal e with
        | none =>
            rw [judgeAgent, judge_unknown hrefusal] at houtcome
            cases houtcome
        | some same =>
            rw [judgeAgent, judge_refused hrefusal] at houtcome ⊢
            cases houtcome
            exact .refused hrefusal
  obtain ⟨⟨⟩, -⟩ | ⟨answer, rfl, houtcome⟩ := hagent.of_agent
  cases answer with
  | error e =>
      cases hrefusal : refusal e with
      | none =>
          rw [judgeAgent, judge_unknown hrefusal] at houtcome ⊢
          cases houtcome
          cases hfound
          rw [List.append_nil]
          exact .unknown hrefusal
      | some same =>
          rw [judgeAgent, judge_refused hrefusal] at houtcome
          cases houtcome
  | ok agent =>
      cases houtcome
      rcases hfound.of_exchange_bind with ⟨⟨⟩, -⟩ | ⟨_, -, hfailed⟩ |
        ⟨polled, _, afterPoll, rfl, hpoll, hpolled⟩
      · obtain ⟨⟨⟩, -⟩ | ⟨_, ⟨⟩, -⟩ := hfailed.of_request
      obtain ⟨⟨⟩, -⟩ | ⟨_, ⟨⟩, rfl⟩ := hpoll.of_request
      rcases polled with e | ⟨_ | _, commit⟩
      · obtain ⟨rfl, rfl⟩ := Transcript.of_notes_return hpolled
        exact .pollFailed
      · obtain ⟨rfl, rfl⟩ := Transcript.of_notes_return hpolled
        exact .current
      · rcases hpolled.of_exchange_bind with ⟨⟨⟩, -⟩ | ⟨_, -, hfailed⟩ |
          ⟨_, _, afterLog, rfl, hlog, hfile⟩
        · cases hfailed.of_notes.1
        obtain ⟨-, rfl⟩ := hlog.of_notes
        rcases hfile.of_exchange_bind with ⟨⟨⟩, -⟩ | ⟨_, -, hfailed⟩ |
          ⟨fetched, _, afterFile, rfl, hasked, hfetched⟩
        · obtain ⟨⟨⟩, -⟩ | ⟨_, ⟨⟩, -⟩ := hfailed.of_request
        obtain ⟨⟨⟩, -⟩ | ⟨_, ⟨⟩, rfl⟩ := hasked.of_request
        split at hfetched
        · next o hobstacle =>
          obtain ⟨rfl, rfl⟩ := Transcript.of_notes_return hfetched
          exact .obstacle hobstacle
        · next configuration hconfiguration =>
          exact passes_of_send hconfiguration hfetched

theorem passes_of_waits {query : Query ConfigurationResponse}
    (waits : Waits query (tick settings token cursor).run events) :
    Passes settings token cursor events (.cut query) := by
  rcases waits.of_exchange_bind with hagent | ⟨found, _, afterAgent, rfl, hagent, hfound⟩
  · obtain ⟨rfl, rfl⟩ := hagent.of_agent
    exact .lookupCut
  obtain ⟨⟨⟩, -⟩ | ⟨answer, rfl, houtcome⟩ := hagent.of_agent
  cases answer with
  | error e =>
      cases hrefusal : refusal e with
      | none =>
          rw [judgeAgent, judge_unknown hrefusal] at houtcome
          cases houtcome
          cases hfound
      | some same =>
          rw [judgeAgent, judge_refused hrefusal] at houtcome
          cases houtcome
  | ok agent =>
      cases houtcome
      rcases hfound.of_exchange_bind with hpoll | ⟨polled, _, afterPoll, rfl, hpoll, hpolled⟩
      · obtain ⟨rfl, rfl⟩ := hpoll.of_request
        exact .pollCut
      obtain ⟨⟨⟩, -⟩ | ⟨_, ⟨⟩, rfl⟩ := hpoll.of_request
      rcases polled with e | ⟨_ | _, commit⟩
      · exact absurd hpolled Waits.not_notes_return
      · exact absurd hpolled Waits.not_notes_return
      · rcases hpolled.of_exchange_bind with hlog | ⟨_, _, afterLog, rfl, hlog, hfile⟩
        · exact absurd hlog Waits.not_notes
        obtain ⟨-, rfl⟩ := hlog.of_notes
        rcases hfile.of_exchange_bind with hasked | ⟨fetched, _, afterFile, rfl, hasked, hfetched⟩
        · obtain ⟨rfl, rfl⟩ := hasked.of_request
          exact .fileCut
        obtain ⟨⟨⟩, -⟩ | ⟨_, ⟨⟩, rfl⟩ := hasked.of_request
        split at hfetched
        · exact absurd hfetched Waits.not_notes_return
        · next configuration hconfiguration =>
          exact passes_of_waits_send hconfiguration hfetched

end Inversion

theorem passes_of_isOf {settings : Settings} {token : AgentToken} {start : String}
    {tick : Tick ConfigurationResponse} (isOf : tick.IsOf (plan settings token start)) :
    Passes settings token tick.cursor tick.events tick.ending := by
  obtain ⟨cursor, events, ending⟩ := tick
  cases ending with
  | reached next => exact passes_of_transcript isOf
  | failed status => exact passes_of_transcript isOf
  | cut query => exact passes_of_waits isOf

/-! ### What a tick finds and does -/

def isReport : Event ConfigurationResponse → Bool
  | .noted (.log .info text (some _)) => text = "Config: failed to fetch"
  | _ => false

def reports (events : List (Event ConfigurationResponse)) : Nat := events.countP isReport

/-- Whether the users of a commit are to blame for what came of its file. -/
def IsUsersFault : Except FetchError (Option (List UInt8)) → Prop
  | .error e => e.isUserError = true
  | .ok none => True
  | .ok (some data) => ∃ e, AgentConfiguration.parse data = .error e

section Ticks

variable (settings : Settings) (token : AgentToken) (tick : Tick ConfigurationResponse)

/-- A tick learns what came of the file of a commit.  It was told of its agent, and then of this
commit, which is not the one at its cursor, at the head of the agent's repository. -/
def Fetches (commit : String) (fetched : Except FetchError (Option (List UInt8))) : Prop :=
  ∃ agent info, .answered (.agent token) (.ok agent) ∈ tick.events ∧
    .answered (headQuery agent tick.cursor) (.ok info) ∈ tick.events ∧ info.commit = commit ∧
    commit ≠ tick.cursor ∧ .answered (fileQuery settings agent commit) fetched ∈ tick.events

def Finds (r : ConfigurationResponse) : Prop :=
  ∃ data configuration, Fetches settings token tick r.commit (.ok (some data)) ∧
    AgentConfiguration.parse data = .ok configuration ∧ r.configuration = some configuration

def Blames (commit : String) : Prop :=
  ∃ fetched, Fetches settings token tick commit fetched ∧ IsUsersFault fetched

def Misses (commit : String) : Prop :=
  ∃ e, Fetches settings token tick commit (.error e) ∧ e.isUserError = false

/-- A tick sends the configuration of a commit or finds its users to blame. -/
def Settles (commit : String) : Prop :=
  (∃ r ∈ sent tick.events, r.commit = commit) ∨ Blames settings token tick commit

/-- What a tick does follows from what it finds, and it finds one file at most. -/
structure IsRight : Prop where
  single : ∀ {c d f g}, Fetches settings token tick c f → Fetches settings token tick d g →
    c = d ∧ f = g
  asks : ∀ r, tick.Asks (.send r) ↔ Finds settings token tick r
  sends : ∀ r, r ∈ sent tick.events ↔
    Finds settings token tick r ∧ tick.ending = .reached r.commit
  blames : reports tick.events = 1 ↔ ∃ commit, Blames settings token tick commit
  once : (sent tick.events).length + reports tick.events ≤ 1
  settles : ∀ commit, Settles settings token tick commit → tick.ending = .reached commit
  stays : (∀ commit, ¬ Settles settings token tick commit) → tick.next = tick.cursor
  fetches : ∀ agent info, .answered (.agent token) (.ok agent) ∈ tick.events →
    .answered (headQuery agent tick.cursor) (.ok info) ∈ tick.events → info.commit ≠ tick.cursor →
    tick.Asks (fileQuery settings agent info.commit)

end Ticks

section Findings

variable {settings : Settings} {token : AgentToken} {tick : Tick ConfigurationResponse}

theorem isUsersFault_iff {path : String} {fetched : Except FetchError (Option (List UInt8))}
    {o : Obstacle} (h : configurationOf path fetched = .error o) :
    IsUsersFault fetched ↔ o.isUserError = true := by
  match fetched with
  | .error e =>
      cases h
      exact Iff.rfl
  | .ok none =>
      cases h
      exact iff_of_true trivial rfl
  | .ok (some data) =>
      rw [configurationOf] at h
      cases hparse : AgentConfiguration.parse data with
      | error e =>
          rw [hparse] at h
          cases h
          exact iff_of_true ⟨e, hparse⟩ rfl
      | ok configuration =>
          rw [hparse] at h
          cases h

theorem configurationOf_eq_ok {path : String} {fetched : Except FetchError (Option (List UInt8))}
    {configuration : AgentConfiguration} :
    configurationOf path fetched = .ok configuration ↔
      ∃ data, fetched = .ok (some data) ∧ AgentConfiguration.parse data = .ok configuration := by
  match fetched with
  | .error e => simp [configurationOf]
  | .ok none => simp [configurationOf]
  | .ok (some data) =>
      cases hparse : AgentConfiguration.parse data <;>
        simp [configurationOf, hparse, Except.mapError]

theorem isRight_of_idle (idle : ∀ c f, ¬ Fetches settings token tick c f)
    (asks : ∀ r, ¬ tick.Asks (.send r)) (sent : sent tick.events = [])
    (counted : reports tick.events = 0) (stays : tick.next = tick.cursor)
    (fetches : ∀ agent info, .answered (.agent token) (.ok agent) ∈ tick.events →
      .answered (headQuery agent tick.cursor) (.ok info) ∈ tick.events → info.commit ≠ tick.cursor →
      tick.Asks (fileQuery settings agent info.commit)) :
    IsRight settings token tick where
  single h := absurd h (idle _ _)
  asks r := iff_of_false (asks r) fun ⟨_, _, h, _⟩ => idle _ _ h
  sends r := by
    rw [sent]
    exact iff_of_false nofun fun ⟨⟨_, _, h, _⟩, _⟩ => idle _ _ h
  blames := by
    rw [counted]
    exact iff_of_false nofun fun ⟨_, _, h, _⟩ => idle _ _ h
  once := by
    rw [sent, counted]
    exact Nat.zero_le 1
  settles commit h := by
    rcases h with ⟨r, hr, -⟩ | ⟨_, h, -⟩
    · rw [sent] at hr
      cases hr
    · exact absurd h (idle _ _)
  stays _ := stays
  fetches := fetches

section Fetched

variable {cursor commit : String} {agent : AgentInfo}
  {fetched : Except FetchError (Option (List UInt8))}

theorem new_of_honest {rest : List (Event ConfigurationResponse)}
    (honest : ∀ event ∈ toldOf token cursor agent commit ++ rest, event.IsHonest) :
    commit ≠ cursor := by
  have hhead := honest (.answered (headQuery agent cursor) (.ok ⟨true, commit⟩)) (by simp [toldOf])
  exact bne_iff_ne.1 hhead.symm

theorem fetches_iff (new : commit ≠ cursor) {rest : List (Event ConfigurationResponse)}
    {ending : Tick.Ending ConfigurationResponse}
    (later : ∀ query answer, .answered query answer ∈ rest → ∃ r, query = .send r) {c : String}
    {f : Except FetchError (Option (List UInt8))} :
    Fetches settings token ⟨cursor, toldOf token cursor agent commit ++
        .answered (fileQuery settings agent commit) fetched :: rest, ending⟩ c f ↔
      c = commit ∧ f = fetched := by
  have hagent : ∀ a, .answered (.agent token) a ∉ rest := fun a h => by
    obtain ⟨r, hr⟩ := later _ _ h
    cases hr
  have hhead : ∀ a b, .answered (headQuery a cursor) b ∉ rest := fun a b h => by
    obtain ⟨r, hr⟩ := later _ _ h
    cases hr
  have hfile : ∀ a c f, .answered (fileQuery settings a c) f ∉ rest := fun a c f h => by
    obtain ⟨r, hr⟩ := later _ _ h
    cases hr
  constructor
  · rintro ⟨a, info, ha, hinfo, rfl, -, hf⟩
    simp [toldOf, hagent, hhead, hfile] at ha hinfo hf
    exact ⟨congrArg PollInfo.commit hinfo.2, hf.2⟩
  · rintro ⟨rfl, rfl⟩
    exact ⟨agent, ⟨true, c⟩, by simp [toldOf], by simp [toldOf], rfl, new, by simp⟩

end Fetched

section Right

variable {commit : String} {path : String} {fetched : Except FetchError (Option (List UInt8))}
  (only : ∀ c f, Fetches settings token tick c f ↔ c = commit ∧ f = fetched)
  (fetches : ∀ agent info, .answered (.agent token) (.ok agent) ∈ tick.events →
    .answered (headQuery agent tick.cursor) (.ok info) ∈ tick.events → info.commit ≠ tick.cursor →
    tick.Asks (fileQuery settings agent info.commit))

theorem single_of_only {c d : String} {f g : Except FetchError (Option (List UInt8))}
    (only : ∀ c f, Fetches settings token tick c f ↔ c = commit ∧ f = fetched)
    (first : Fetches settings token tick c f) (second : Fetches settings token tick d g) :
    c = d ∧ f = g := by
  obtain ⟨rfl, rfl⟩ := (only c f).1 first
  obtain ⟨rfl, rfl⟩ := (only d g).1 second
  exact ⟨rfl, rfl⟩

include only fetches

/-- A tick that cannot use the file that it fetches is right if it passes over the commit exactly
where its users are to blame. -/
theorem isRight_of_obstacle {o : Obstacle} (h : configurationOf path fetched = .error o)
    (asks : ∀ r, ¬ tick.Asks (.send r)) (quiet : sent tick.events = [])
    (counted : reports tick.events = if o.isUserError then 1 else 0)
    (ending : tick.ending = .reached (if o.isUserError then commit else tick.cursor)) :
    IsRight settings token tick := by
  have hblames : ∀ c, Blames settings token tick c ↔ c = commit ∧ o.isUserError = true := by
    intro c
    rw [← isUsersFault_iff h]
    constructor
    · rintro ⟨f, hf, hfault⟩
      obtain ⟨rfl, rfl⟩ := (only c f).1 hf
      exact ⟨rfl, hfault⟩
    · rintro ⟨rfl, hfault⟩
      exact ⟨fetched, (only c fetched).2 ⟨rfl, rfl⟩, hfault⟩
  have hfinds : ∀ r, ¬ Finds settings token tick r := by
    rintro r ⟨data, configuration, hf, hparse, -⟩
    obtain ⟨-, rfl⟩ := (only _ _).1 hf
    rw [(configurationOf_eq_ok).2 ⟨data, rfl, hparse⟩] at h
    cases h
  constructor
  case single => exact single_of_only only
  case asks => exact fun r => iff_of_false (asks r) (hfinds r)
  case sends =>
    rw [quiet]
    exact fun r => iff_of_false nofun fun hr => hfinds r hr.1
  case blames =>
    rw [counted]
    simp [hblames]
  case once =>
    rw [quiet, counted, List.length_nil, Nat.zero_add]
    split <;> decide
  case settles =>
    rintro c (⟨r, hr, -⟩ | hblamed)
    · rw [quiet] at hr
      cases hr
    · obtain ⟨rfl, hfault⟩ := (hblames c).1 hblamed
      rw [ending, if_pos hfault]
  case stays =>
    intro hnone
    have hfault : ¬ o.isUserError = true := fun hfault =>
      hnone commit (.inr ((hblames commit).2 ⟨rfl, hfault⟩))
    rw [Tick.next, ending, if_neg hfault]
  case fetches => exact fetches

/-- A tick that can use the file that it fetches is right if it goes on once the configuration is
sent, and not otherwise. -/
theorem isRight_of_usable {configuration : AgentConfiguration}
    (h : configurationOf path fetched = .ok configuration)
    (asks : ∀ r, tick.Asks (.send r) ↔ r = ⟨some configuration, commit⟩)
    (counted : reports tick.events = 0)
    (ending : (sent tick.events = [⟨some configuration, commit⟩] ∧ tick.ending = .reached commit) ∨
      (sent tick.events = [] ∧ tick.next = tick.cursor ∧ ∀ next, tick.ending ≠ .reached next)) :
    IsRight settings token tick := by
  obtain ⟨data, rfl, hparse⟩ := configurationOf_eq_ok.1 h
  have hfinds : ∀ r, Finds settings token tick r ↔ r = ⟨some configuration, commit⟩ := by
    rintro ⟨found, c⟩
    constructor
    · rintro ⟨same, parsed, hf, hsame, hfound⟩
      obtain ⟨hc, hdata⟩ := (only _ _).1 hf
      cases hdata
      cases hparse.symm.trans hsame
      cases hfound
      cases hc
      rfl
    · intro hr
      cases hr
      exact ⟨data, configuration, (only _ _).2 ⟨rfl, rfl⟩, hparse, rfl⟩
  have hblames : ∀ c, ¬ Blames settings token tick c := by
    rintro c ⟨f, hf, hfault⟩
    obtain ⟨-, rfl⟩ := (only _ _).1 hf
    obtain ⟨e, he⟩ := hfault
    cases hparse.symm.trans he
  constructor
  case single => exact single_of_only only
  case asks => exact fun r => (asks r).trans (hfinds r).symm
  case sends =>
    intro r
    rw [hfinds r]
    rcases ending with ⟨hsent, hending⟩ | ⟨hsent, -, hending⟩
    · rw [hsent, hending, List.mem_singleton]
      refine ⟨fun hr => ⟨hr, ?_⟩, fun hr => hr.1⟩
      rw [hr]
    · rw [hsent]
      exact iff_of_false nofun fun hr => hending _ hr.2
  case blames =>
    rw [counted]
    exact iff_of_false nofun fun ⟨c, hc⟩ => hblames c hc
  case once =>
    rcases ending with ⟨hsent, -⟩ | ⟨hsent, -⟩
    · rw [hsent, counted, List.length_singleton]
    · rw [hsent, counted, List.length_nil]
      exact Nat.zero_le 1
  case settles =>
    rintro c (⟨r, hr, rfl⟩ | hblamed)
    · rcases ending with ⟨hsent, hending⟩ | ⟨hsent, -⟩
      · rw [hsent, List.mem_singleton] at hr
        rw [hending, hr]
      · rw [hsent] at hr
        cases hr
    · exact absurd hblamed (hblames c)
  case stays =>
    intro hnone
    rcases ending with ⟨hsent, -⟩ | ⟨-, hnext, -⟩
    · refine absurd (.inl ⟨⟨some configuration, commit⟩, ?_, rfl⟩) (hnone commit)
      rw [hsent]
      exact List.mem_cons_self
    · exact hnext
  case fetches => exact fetches

end Right

theorem reports_obstacle {cursor commit : String} {agent : AgentInfo}
    {fetched : Except FetchError (Option (List UInt8))} (o : Obstacle) :
    reports (toldOf token cursor agent commit ++
      .answered (fileQuery settings agent commit) fetched ::
        (o.notes "Config: failed to fetch").map .noted) = if o.isUserError then 1 else 0 := by
  cases h : o.isUserError <;>
    simp [toldOf, Obstacle.notes, h, Blame.ofUserError, Relay.failure, unexpected, logged, reports,
      isReport]

theorem isRight_of_passes {cursor : String} {events : List (Event ConfigurationResponse)}
    {ending : Tick.Ending ConfigurationResponse} (passes : Passes settings token cursor events ending)
    (honest : ∀ event ∈ events, event.IsHonest) : IsRight settings token ⟨cursor, events, ending⟩ := by
  cases passes with
  | lookupCut =>
      refine isRight_of_idle ?_ ?_ rfl rfl rfl ?_ <;> simp [Fetches, Tick.Asks]
  | refused h =>
      refine isRight_of_idle ?_ ?_ rfl rfl rfl ?_ <;> simp [Fetches, Tick.Asks]
  | unknown h =>
      refine isRight_of_idle ?_ ?_ rfl rfl rfl ?_ <;> simp [Fetches, Tick.Asks, unexpected]
  | pollCut =>
      refine isRight_of_idle ?_ ?_ rfl rfl rfl ?_ <;> simp [Fetches, Tick.Asks]
  | @pollFailed agent e =>
      have hsilent : sent ((fetchFailure "Config: repository poll failed" e).map
          (Event.noted : Note → Event ConfigurationResponse)) = [] := by simp [sent, Event.sent?]
      have hreports : reports ((fetchFailure "Config: repository poll failed" e).map .noted) = 0 := by
        cases h : e.isUserError <;>
          simp [fetchFailure, Blame.ofUserError, h, Relay.failure, unexpected, reports, isReport]
      refine isRight_of_idle ?_ ?_ hsilent hreports rfl ?_ <;> simp [Fetches, Tick.Asks]
  | @current agent commit =>
      have hcurrent : commit = cursor := by
        simpa using (honest (.answered (headQuery agent cursor) (.ok ⟨false, commit⟩))
          (by simp)).symm
      refine isRight_of_idle ?_ ?_ rfl rfl rfl ?_ <;> simp +contextual [Fetches, Tick.Asks, hcurrent]
  | fileCut =>
      refine isRight_of_idle ?_ ?_ rfl rfl rfl ?_ <;> simp +contextual [Fetches, Tick.Asks, toldOf]
  | obstacle h =>
      refine isRight_of_obstacle (fun c f => fetches_iff (new_of_honest honest) ?_) ?_ h ?_ ?_ ?_ rfl
      · simp
      · simp +contextual [Tick.Asks, toldOf]
      · simp [Tick.Asks, toldOf]
      · simp [sent, toldOf, Event.sent?]
      · exact reports_obstacle _
  | sendCut h =>
      refine isRight_of_usable (fun c f => fetches_iff (new_of_honest honest) ?_) ?_ h ?_ ?_ ?_
      · simp
      · simp +contextual [Tick.Asks, toldOf]
      · simp [Tick.Asks, toldOf, eq_comm]
      · simp [toldOf, logged, reports, isReport]
      · exact .inr ⟨by simp [sent, toldOf, Event.sent?], rfl, fun _ hreached => by cases hreached⟩
  | sendFailed h =>
      refine isRight_of_usable (fun c f => fetches_iff (new_of_honest honest) ?_) ?_ h ?_ ?_ ?_
      · simp +contextual
      · simp +contextual [Tick.Asks, toldOf]
      · simp [Tick.Asks, toldOf, sendFailure, eq_comm]
      · simp [toldOf, logged, reports, isReport, sendFailure]
      · exact .inr ⟨by simp [sent, toldOf, Event.sent?, sendFailure], rfl, fun _ hreached => by cases hreached⟩
  | sent h =>
      refine isRight_of_usable (fun c f => fetches_iff (new_of_honest honest) ?_) ?_ h ?_ ?_ ?_
      · simp +contextual
      · simp +contextual [Tick.Asks, toldOf]
      · simp [Tick.Asks, toldOf, eq_comm]
      · simp [toldOf, logged, reports, isReport]
      · exact .inl ⟨rfl, rfl⟩

end Findings

/-! ### Runs -/

/-- Wherever ticks hear of the head of a repository, it is this commit. -/
def StaysAt (head : String) (ticks : List (Tick ConfigurationResponse)) : Prop :=
  ∀ tick ∈ ticks, ∀ server repository last name info,
    .answered (.poll server repository last name) (.ok info) ∈ tick.events → info.commit = head

def settlements (ticks : List (Tick ConfigurationResponse)) : Nat :=
  (sent (ticks.flatMap Tick.events)).length + reports (ticks.flatMap Tick.events)

section Runs

variable {settings : Settings} {token : AgentToken} {head : String}
  {tick : Tick ConfigurationResponse}

theorem settlements_cons (tick : Tick ConfigurationResponse)
    (rest : List (Tick ConfigurationResponse)) :
    settlements (tick :: rest) =
      (sent tick.events).length + reports tick.events + settlements rest := by
  rw [settlements, settlements, List.flatMap_cons, sent_append, List.length_append, reports,
    List.countP_append]
  simp only [reports]
  omega

theorem IsRight.fetches_of_settles (right : IsRight settings token tick) {commit : String}
    (h : Settles settings token tick commit) :
    ∃ fetched, Fetches settings token tick commit fetched ∧
      ∀ e, fetched = .error e → e.isUserError = true := by
  rcases h with ⟨r, hr, rfl⟩ | ⟨fetched, hfetched, hfault⟩
  · obtain ⟨⟨data, configuration, hfetched, -⟩, -⟩ := (right.sends r).1 hr
    exact ⟨_, hfetched, nofun⟩
  · refine ⟨fetched, hfetched, ?_⟩
    rintro e rfl
    exact hfault

theorem Fetches.eq_head {commit : String} {fetched : Except FetchError (Option (List UInt8))}
    (h : Fetches settings token tick commit fetched) (stays : StaysAt head [tick]) :
    commit = head ∧ tick.cursor ≠ head := by
  obtain ⟨agent, info, -, hinfo, rfl, hnew, -⟩ := h
  obtain rfl := stays tick List.mem_cons_self _ _ _ _ info hinfo
  exact ⟨rfl, hnew.symm⟩

theorem IsRight.settlements_eq_zero (right : IsRight settings token tick)
    (h : ∀ commit, ¬ Settles settings token tick commit) :
    (sent tick.events).length + reports tick.events = 0 := by
  have hsent : sent tick.events = [] := by
    refine List.eq_nil_iff_forall_not_mem.2 fun r hr => ?_
    exact h r.commit (.inl ⟨r, hr, rfl⟩)
  have hreports : reports tick.events ≠ 1 := fun hone => by
    obtain ⟨commit, hblames⟩ := right.blames.1 hone
    exact h commit (.inr hblames)
  have honce := right.once
  rw [hsent, List.length_nil] at honce ⊢
  omega

theorem IsRight.cursor_eq (right : IsRight settings token tick) {cursor : String}
    (idle : ∀ commit, ¬ Settles settings token tick commit) (h : tick.ending = .reached cursor) :
    cursor = tick.cursor := by
  have hnext := right.stays idle
  rwa [Tick.next, h] at hnext

/-- While a commit stays the head, it is settled once at most, and not at all if it is at the cursor
already. -/
theorem settlements_le_one {segment : List (Tick ConfigurationResponse)}
    (right : ∀ tick ∈ segment, IsRight settings token tick)
    (linked : segment.IsChain fun tick later => tick.ending = .reached later.cursor)
    (stays : StaysAt head segment) :
    settlements segment ≤ 1 ∧ ∀ tick ∈ segment.head?, tick.cursor = head → settlements segment = 0 := by
  induction segment with
  | nil => exact ⟨Nat.zero_le 1, nofun⟩
  | cons tick rest ih =>
      obtain ⟨hright, hrest⟩ := List.forall_mem_cons.1 right
      obtain ⟨htick, hstays⟩ := List.forall_mem_cons.1 stays
      have hhead : StaysAt head [tick] := List.forall_mem_singleton.2 htick
      obtain ⟨hlink, hlinked⟩ := List.isChain_cons.1 linked
      obtain ⟨hle, hzero⟩ := ih hrest hlinked hstays
      rw [settlements_cons]
      -- what the rest does depends on whether this tick has moved the cursor to the head
      by_cases hsettles : ∃ commit, Settles settings token tick commit
      · obtain ⟨commit, hcommit⟩ := hsettles
        obtain ⟨fetched, hfetched, -⟩ := hright.fetches_of_settles hcommit
        obtain ⟨rfl, hnew⟩ := hfetched.eq_head hhead
        have hnone : settlements rest = 0 := by
          cases hfirst : rest.head? with
          | none => rw [List.head?_eq_none_iff.1 hfirst]; rfl
          | some later =>
              have hreached := hlink later hfirst
              rw [hright.settles commit hcommit] at hreached
              cases hreached
              exact hzero later hfirst rfl
        rw [hnone]
        refine ⟨hright.once, fun same hsame hcursor => ?_⟩
        obtain rfl := Option.some.inj hsame
        exact absurd hcursor hnew
      · have hidle := not_exists.1 hsettles
        rw [hright.settlements_eq_zero hidle, Nat.zero_add]
        refine ⟨hle, fun same hsame hcursor => ?_⟩
        obtain rfl := Option.some.inj hsame
        cases hfirst : rest.head? with
        | none => rw [List.head?_eq_none_iff.1 hfirst]; rfl
        | some later =>
            exact hzero later hfirst ((hright.cursor_eq hidle (hlink later hfirst)).trans hcursor)

theorem cursor_eq_of_unsettled {first last : Tick ConfigurationResponse}
    {between : List (Tick ConfigurationResponse)}
    (right : ∀ tick ∈ first :: between, IsRight settings token tick)
    (idle : ∀ tick ∈ first :: between, ∀ commit, ¬ Settles settings token tick commit)
    (linked : (first :: (between ++ [last])).IsChain fun tick later =>
      tick.ending = .reached later.cursor) : last.cursor = first.cursor := by
  obtain ⟨hright, hrest⟩ := List.forall_mem_cons.1 right
  obtain ⟨hidle, hidleRest⟩ := List.forall_mem_cons.1 idle
  induction between generalizing first with
  | nil => exact hright.cursor_eq hidle linked.rel
  | cons second rest ih =>
      rw [List.cons_append] at linked
      obtain ⟨hsecond, hlater⟩ := List.forall_mem_cons.1 hrest
      obtain ⟨hidleSecond, hidleLater⟩ := List.forall_mem_cons.1 hidleRest
      have hlast := ih hrest hidleRest linked.of_cons hsecond hlater hidleSecond hidleLater
      exact hlast.trans (hright.cursor_eq hidle linked.rel)

/-- A commit whose file was missed without any fault of its users is tried again at every tick that
comes to know it, until it is settled. -/
theorem asks_again {first last : Tick ConfigurationResponse}
    {between : List (Tick ConfigurationResponse)}
    (right : ∀ tick ∈ first :: (between ++ [last]), IsRight settings token tick)
    (linked : (first :: (between ++ [last])).IsChain fun tick later =>
      tick.ending = .reached later.cursor)
    (stays : StaysAt head (first :: (between ++ [last])))
    (misses : Misses settings token first head)
    (unsettled : ∀ tick ∈ between, ¬ Settles settings token tick head) {agent : AgentInfo}
    {info : PollInfo} (found : .answered (.agent token) (.ok agent) ∈ last.events)
    (polled : .answered (headQuery agent last.cursor) (.ok info) ∈ last.events) :
    last.Asks (fileQuery settings agent head) := by
  obtain ⟨e, hfetches, hfault⟩ := misses
  have hcursor : last.cursor = first.cursor := by
    have hbefore : ∀ tick ∈ first :: between, IsRight settings token tick := fun tick h =>
      right tick (List.cons_subset_cons first (List.subset_append_left between [last]) h)
    refine cursor_eq_of_unsettled hbefore ?_ linked
    refine List.forall_mem_cons.2 ⟨fun commit hcommit => ?_, fun tick htick commit hcommit => ?_⟩
    · have hfirst := right first List.mem_cons_self
      obtain ⟨fetched, hfetched, husers⟩ := hfirst.fetches_of_settles hcommit
      have hsame := husers e (hfirst.single hfetched hfetches).2
      rw [hfault] at hsame
      cases hsame
    · have hmem : tick ∈ first :: (between ++ [last]) :=
        .tail first (List.mem_append_left _ htick)
      obtain ⟨fetched, hfetched, -⟩ := (right tick hmem).fetches_of_settles hcommit
      obtain ⟨rfl, -⟩ := hfetched.eq_head (List.forall_mem_singleton.2 (stays tick hmem))
      exact unsettled tick htick hcommit
  have hlast : last ∈ first :: (between ++ [last]) :=
    .tail first (List.mem_append_right _ List.mem_cons_self)
  have hnew := (hfetches.eq_head (List.forall_mem_singleton.2 (stays first List.mem_cons_self))).2
  have hinfo := stays last hlast _ _ _ _ info polled
  have hasks := (right last hlast).fetches agent info found polled (by rw [hinfo, hcursor]; exact hnew.symm)
  rwa [hinfo] at hasks

end Runs

/-- A run is a course of ticks that do what follows from what they find.  While a commit stays the
head of its repository it is sent or reported once at most, and a file that was missed without any
fault of its users is asked for again until the commit is settled. -/
theorem run_settles {σ : Type} (host : Host σ ConfigurationResponse)
    (honest : host.Uphold Event.IsHonest) (settings : Settings) (token : AgentToken)
    (commit : String) (fuel : Nat) (s : σ) {result : Option (Except Status Unit)} {t : σ}
    {events : List (Event ConfigurationResponse)} {cursor : String}
    (run : (plan settings token commit).run host.recorded fuel (s, []) =
      (result, (t, events), cursor)) :
    ∃ ticks, events = ticks.flatMap Tick.events ∧ (plan settings token commit).Course ticks cursor ∧
      Plan.Result ticks result ∧ (∀ tick ∈ ticks, IsRight settings token tick) ∧
      ∀ head segment, segment <:+: ticks → StaysAt head segment →
        (sent (segment.flatMap Tick.events)).length + reports (segment.flatMap Tick.events) ≤ 1 ∧
        ∀ first between last, segment = first :: (between ++ [last]) →
          Misses settings token first head →
          (∀ tick ∈ between, ¬ Settles settings token tick head) →
          ∀ agent info, .answered (.agent token) (.ok agent) ∈ last.events →
            .answered (headQuery agent last.cursor) (.ok info) ∈ last.events →
            last.Asks (fileQuery settings agent head) := by
  obtain ⟨ticks, rfl, hcourse, hresult, hhonest⟩ :=
    Plan.run_course rfl honest (fun _ => trivial) run
  have hright : ∀ tick ∈ ticks, IsRight settings token tick := by
    intro tick htick
    refine isRight_of_passes (passes_of_isOf (hcourse.each tick htick)) fun event hevent => ?_
    exact hhonest event (List.mem_flatMap.2 ⟨tick, htick, hevent⟩)
  refine ⟨ticks, rfl, hcourse, hresult, hright, fun head segment hsegment hstays => ?_⟩
  have hsegmentRight : ∀ tick ∈ segment, IsRight settings token tick := fun tick h =>
    hright tick (hsegment.subset h)
  have hlinked := hcourse.linked.infix hsegment
  refine ⟨(settlements_le_one hsegmentRight hlinked hstays).1, ?_⟩
  rintro first between last rfl hmisses hunsettled agent info hfound hpolled
  exact asks_again hsegmentRight hlinked hstays hmisses hunsettled hfound hpolled

/-- A host that counts the ticks.  The file of the first commit is missed in the first of them, and
the second commit, which comes with the fourth, has none. -/
def changingHost : Host Nat ConfigurationResponse where
  answer
    | .agent _, n => (some (.ok default), n)
    | .project .., n => (some (.ok default), n)
    | .poll _ _ last _, n => (some (.ok (.ofCommit (if n < 3 then "first" else "second") last)), n)
    | .file .., n =>
        (some (if n = 0 then .error (.io "broken pipe") else .ok (if n < 3 then some [] else none)), n)
    | .visit .., n => (some (.finished (.ok ())), n)
    | .send _, n => (some (.ok ()), n)
  record _ n := n
  start _ n := n
  isStopped _ := false
  pause _ n := (true, n + 1)

theorem changingHost_honest : changingHost.Uphold Event.IsHonest := by
  intro query n answer h
  cases query with
  | poll server repository last name =>
      obtain rfl := Option.some.inj h
      rfl
  | agent token => trivial
  | project token id => trivial
  | file server repository revision path limit => trivial
  | visit server repository revision directory recursive => trivial
  | send frame => trivial

/-- Five ticks, of which the second sends a configuration and the fourth reports a commit. -/
theorem run_settles_changing :
    ∃ result n events cursor,
      (plan default default "none").run changingHost.recorded 5 (0, []) =
        (result, (n, events), cursor) ∧
      changingHost.Uphold Event.IsHonest ∧ (sent events).map ConfigurationResponse.commit = ["first"] ∧
      reports events = 1 ∧ cursor = "second" ∧
      ∃ ticks, events = ticks.flatMap Tick.events ∧
        (plan default default "none").Course ticks cursor ∧
        ∀ tick ∈ ticks, IsRight default default tick := by
  refine ⟨_, _, _, _, rfl, changingHost_honest, rfl, rfl, rfl, ?_⟩
  obtain ⟨ticks, hevents, hcourse, -, hright, -⟩ :=
    run_settles changingHost changingHost_honest default default "none" 5 0 rfl
  exact ⟨ticks, hevents, hcourse, hright⟩

end ConfigurationStream

end ManifestRelay.Session
