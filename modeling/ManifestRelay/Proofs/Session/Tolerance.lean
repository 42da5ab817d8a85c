import ManifestRelay.Hosting.Interface
import ManifestRelay.Proofs.Session.Comparison
import ManifestRelay.Proofs.Session.Settling

/-!
# Setbacks and refusals

A stream lives with setbacks: a tick that meets one passes as if there were
nothing new.  A refused credential is final: the stream ends there and then,
and nothing happens afterwards.
-/

namespace ManifestRelay.Session

open Fetch Metadata Relay Turn
open ManifestRelay.Stream
open ManifestRelay.Wire (ConfigurationResponse)

/-! ### Setbacks -/

namespace ConfigurationStream

variable {settings : Settings} {token : AgentToken} {cursor : String}
  {events : List (Event ConfigurationResponse)} {ending : Tick.Ending ConfigurationResponse}

/-- If a tick that comes to know a new commit meets a setback, it is that it misses the file. -/
theorem missed_of_setback {agent : AgentInfo} {commit : String}
    {fetched : Except FetchError (Option (List UInt8))} {rest : List (Event ConfigurationResponse)}
    (calm : ∀ event ∈ rest, ¬ (event.IsSetback ∨ event.IsNoUpdate))
    (h : ∃ event ∈ toldOf token cursor agent commit ++
      .answered (fileQuery settings agent commit) fetched :: rest,
      event.IsSetback ∨ event.IsNoUpdate) :
    ∃ e, fetched = .error e ∧ e.isUserError = false := by
  obtain ⟨event, hevent, hidle⟩ := h
  rcases List.mem_append.1 hevent with htold | hlater
  · simp only [toldOf, List.mem_cons, List.not_mem_nil, or_false] at htold
    rcases htold with rfl | rfl | rfl <;> simp [Event.IsSetback, Event.IsNoUpdate] at hidle
  · rcases List.mem_cons.1 hlater with rfl | hrest
    · cases fetched with
      | ok data => simp [Event.IsSetback, Event.IsNoUpdate] at hidle
      | error e => exact ⟨e, rfl, by simpa [Event.IsSetback, Event.IsNoUpdate] using hidle⟩
    · exact absurd hidle (calm event hrest)

/-- A tick that meets a setback, or finds nothing new, passes without a trace. -/
theorem idle_of_passes (passes : Passes settings token cursor events ending)
    (h : ∃ event ∈ events, event.IsSetback ∨ event.IsNoUpdate) :
    ending = .reached cursor ∧ sent events = [] := by
  cases passes with
  | lookupCut => simp at h
  | @refused e status hrefused =>
      cases e with
      | unexpected => cases hrefused
      | unauthorized => simp [Event.IsSetback, Event.IsNoUpdate] at h
      | forbidden => simp [Event.IsSetback, Event.IsNoUpdate] at h
      | cancelled => simp [Event.IsSetback, Event.IsNoUpdate] at h
  | unknown => exact ⟨rfl, rfl⟩
  | pollCut => simp [Event.IsSetback, Event.IsNoUpdate] at h
  | pollFailed => exact ⟨rfl, by simp [sent, Event.sent?]⟩
  | current => exact ⟨rfl, rfl⟩
  | fileCut => simp [toldOf, Event.IsSetback, Event.IsNoUpdate] at h
  | obstacle hobstacle =>
      obtain ⟨e, rfl, hfault⟩ := missed_of_setback (by simp [Event.IsSetback, Event.IsNoUpdate]) h
      cases hobstacle
      rw [Obstacle.isUserError, hfault]
      exact ⟨rfl, by simp [sent, toldOf, Event.sent?]⟩
  | sendCut husable =>
      obtain ⟨e, rfl, -⟩ := missed_of_setback (by simp) h
      cases husable
  | sendFailed husable =>
      obtain ⟨e, rfl, -⟩ := missed_of_setback
        (by simp [Event.IsSetback, Event.IsNoUpdate, sendFailure]) h
      cases husable
  | sent husable =>
      obtain ⟨e, rfl, -⟩ := missed_of_setback (by simp [Event.IsSetback, Event.IsNoUpdate]) h
      cases husable

theorem livesWithSetbacks (settings : Settings) (token : AgentToken) (commit : String) :
    (plan settings token commit).LivesWithSetbacks := by
  intro _ cursor events outcome transcript h
  match outcome with
  | none =>
      obtain ⟨query, hwaits⟩ := transcript.waits
      cases (idle_of_passes (passes_of_waits hwaits) h).1
  | some (.ok next) =>
      obtain ⟨hending, hsent⟩ := idle_of_passes (passes_of_transcript transcript) h
      cases hending
      exact ⟨rfl, hsent⟩
  | some (.error status) =>
      cases (idle_of_passes (passes_of_transcript transcript) h).1

end ConfigurationStream

namespace ManifestStream

variable {settings : Settings} {token : AgentToken} {projectId : String} {globs : List String}
  {cursor : String} {events : List (Event Frame)}

theorem permits_calm {commit : String} :
    Permits commit fun event => ¬ (event.IsSetback ∨ event.IsNoUpdate) where
  note _ _ := by simp [Event.IsSetback, Event.IsNoUpdate]
  visit _ _ _ _ _ := by simp [Event.IsSetback, Event.IsNoUpdate]
  object _ _ _ := by simp [Event.IsSetback, Event.IsNoUpdate]

theorem calm_newCommit {budget : Turn.Budget} {project : ProjectInfo} {commit : String} :
    (do
      Exchange.log .info "GitOps: new commit"
      sendTurn budget project globs commit
      Exchange.notes [.delivered]
      return commit : Exchange Frame String).run.Always
        fun event => ¬ (event.IsSetback ∨ event.IsNoUpdate) := by
  have hnotes : ∀ notes : List Note, (Exchange.notes notes : Exchange Frame Unit).run.Always
      fun event => ¬ (event.IsSetback ∨ event.IsNoUpdate) := fun notes =>
    Exchange.always_notes fun note _ => by simp [Event.IsSetback, Event.IsNoUpdate]
  have hsend : ∀ frame, (Exchange.send sendFailedText frame : Exchange Frame Unit).run.Always
      fun event => ¬ (event.IsSetback ∨ event.IsNoUpdate) := fun frame =>
    Exchange.always_send (by simp [Event.IsSetback, Event.IsNoUpdate])
      (by simp [Event.IsSetback, Event.IsNoUpdate])
  refine Exchange.always_bind (hnotes _) fun _ => Exchange.always_bind ?_ fun _ =>
    Exchange.always_bind (hnotes _) fun _ => trivial
  refine Exchange.always_bind (hsend _) fun _ => ?_
  refine Exchange.always_bind (always_sendGlobs permits_calm project globs _) fun _ => ?_
  exact Exchange.always_bind (hsend _) fun _ => hnotes _

theorem unexpected_of_setback {answer : Except MetadataError ProjectInfo} {notes : List Note}
    (h : ∃ event ∈ (Event.answered (.project token projectId) answer :: notes.map .noted :
      List (Event Frame)), event.IsSetback ∨ event.IsNoUpdate) :
    ∃ status reason, answer = .error (.unexpected status reason) := by
  obtain ⟨event, hevent, hidle⟩ := h
  rcases List.mem_cons.1 hevent with rfl | hnoted
  · match answer with
    | .error (.unexpected status reason) => exact ⟨status, reason, rfl⟩
    | .ok _ => simp [Event.IsSetback, Event.IsNoUpdate] at hidle
    | .error .unauthorized => simp [Event.IsSetback, Event.IsNoUpdate] at hidle
    | .error .forbidden => simp [Event.IsSetback, Event.IsNoUpdate] at hidle
    | .error .cancelled => simp [Event.IsSetback, Event.IsNoUpdate] at hidle
  · obtain ⟨note, -, rfl⟩ := List.mem_map.1 hnoted
    simp [Event.IsSetback, Event.IsNoUpdate] at hidle

theorem livesWithSetbacks (settings : Settings) (token : AgentToken) (projectId : String)
    (globs : List String) (commit : String) :
    (plan settings token projectId globs commit).LivesWithSetbacks := by
  intro globs cursor events outcome transcript h
  rcases transcript.of_exchange_bind with ⟨rfl, hcut⟩ | ⟨status, rfl, hrefused⟩ |
    ⟨found, _, rest, rfl, hproject, hfound⟩
  · obtain ⟨-, rfl⟩ | ⟨_, -, ⟨⟩⟩ := hcut.of_project
    simp at h
  · obtain ⟨⟨⟩, -⟩ | ⟨answer, rfl, houtcome⟩ := hrefused.of_project
    obtain ⟨_, _, rfl⟩ := unexpected_of_setback h
    cases houtcome
  obtain ⟨⟨⟩, -⟩ | ⟨answer, rfl, houtcome⟩ := hproject.of_project
  cases answer with
  | error e =>
      cases e with
      | unexpected =>
          cases houtcome
          cases hfound
          exact ⟨rfl, rfl⟩
      | unauthorized => cases houtcome
      | forbidden => cases houtcome
      | cancelled => cases houtcome
  | ok project =>
      cases houtcome
      rcases hfound.of_exchange_bind with ⟨rfl, hcut⟩ | ⟨_, -, hfailed⟩ |
        ⟨polled, _, later, rfl, hpoll, hpolled⟩
      · obtain ⟨-, rfl⟩ | ⟨_, ⟨⟩, -⟩ := hcut.of_request
        simp [Event.IsSetback, Event.IsNoUpdate, judgeProject, judge] at h
      · obtain ⟨⟨⟩, -⟩ | ⟨_, ⟨⟩, -⟩ := hfailed.of_request
      obtain ⟨⟨⟩, -⟩ | ⟨_, ⟨⟩, rfl⟩ := hpoll.of_request
      rcases polled with e | ⟨_ | _, commit⟩
      · obtain ⟨rfl, hsent, -⟩ := of_notes_return failure_ne_delivered hpolled
        exact ⟨rfl, hsent⟩
      · obtain ⟨rfl, hsent, -⟩ := of_notes_return (by simp [logged]) hpolled
        exact ⟨rfl, hsent⟩
      · have hcalm := hpolled.of_always calm_newCommit
        obtain ⟨event, hevent, hidle⟩ := h
        simp only [judgeProject, judge, List.map_nil, List.singleton_append,
          List.mem_cons] at hevent
        rcases hevent with rfl | rfl | hlater
        · simp [Event.IsSetback, Event.IsNoUpdate] at hidle
        · simp [Event.IsSetback, Event.IsNoUpdate] at hidle
        · exact absurd hidle (hcalm event hlater)

end ManifestStream

/-! ### Refusals -/

section Refusals

variable {σ φ τ α β : Type}

def Event.refusal? : Event φ → Option Status
  | .answered (.agent _) (.error .unauthorized) => some ⟨.unauthenticated, "unauthenticated"⟩
  | .answered (.agent _) (.error .forbidden) => some ⟨.permissionDenied, "forbidden"⟩
  | .answered (.project ..) (.error .unauthorized) => some ⟨.unauthenticated, "unauthenticated"⟩
  | .answered (.project ..) (.error .forbidden) => some ⟨.permissionDenied, "forbidden"⟩
  | _ => none

def Accepted (events : List (Event φ)) : Prop := ∀ event ∈ events, event.refusal? = none

/-- The last thing that happens is that a credential is refused, for which the stream ends with this
status. -/
def RefusedAtLast (events : List (Event φ)) (status : Status) : Prop :=
  ∃ before event, events = before ++ [event] ∧ Accepted before ∧ event.refusal? = some status

theorem Accepted.append {first rest : List (Event φ)} (hfirst : Accepted first)
    (hrest : Accepted rest) : Accepted (first ++ rest) :=
  List.forall_mem_append.2 ⟨hfirst, hrest⟩

theorem RefusedAtLast.append {first rest : List (Event φ)} {status : Status}
    (hfirst : Accepted first) (hrest : RefusedAtLast rest status) :
    RefusedAtLast (first ++ rest) status := by
  obtain ⟨before, event, rfl, hbefore, hevent⟩ := hrest
  exact ⟨first ++ before, event, (List.append_assoc ..).symm, hfirst.append hbefore, hevent⟩

theorem RefusedAtLast.split {before after : List (Event φ)} {event : Event φ} {status other : Status}
    (refused : RefusedAtLast (before ++ event :: after) status) (h : event.refusal? = some other) :
    after = [] ∧ other = status := by
  obtain ⟨accepted, last, hevents, haccepted, hlast⟩ := refused
  rcases List.eq_nil_or_concat after with rfl | ⟨rest, final, rfl⟩
  · obtain ⟨-, hsame⟩ := List.append_inj' hevents rfl
    cases hsame
    rw [h] at hlast
    exact ⟨rfl, Option.some.inj hlast⟩
  · rw [List.concat_eq_append, ← List.cons_append, ← List.append_assoc] at hevents
    obtain ⟨rfl, -⟩ := List.append_inj' hevents rfl
    have hnone := haccepted event (by simp)
    rw [h] at hnone
    cases hnone

namespace Exchange

/-- An exchange ends its stream when a credential is refused. -/
def Obeys (x : Exchange φ α) : Prop :=
  ∀ events outcome, Transcript x.run events outcome →
    Accepted events ∨ ∃ status, RefusedAtLast events status ∧ outcome = some (.error status)

theorem obeys_of_always {x : Exchange φ α}
    (always : x.run.Always fun event => event.refusal? = none) : x.Obeys :=
  fun _ _ transcript => .inl (transcript.of_always always)

theorem obeys_bind {x : Exchange φ α} {f : α → Exchange φ β} (first : x.Obeys)
    (later : ∀ a, (f a).Obeys) : (x >>= f).Obeys := by
  intro events outcome transcript
  rcases transcript.of_exchange_bind with ⟨rfl, hcut⟩ | ⟨status, rfl, hfailed⟩ |
    ⟨a, before, rest, rfl, hfirst, hrest⟩
  · rcases first _ _ hcut with haccepted | ⟨_, -, ⟨⟩⟩
    exact .inl haccepted
  · rcases first _ _ hfailed with haccepted | ⟨same, hrefused, hsame⟩
    · exact .inl haccepted
    · cases hsame
      exact .inr ⟨status, hrefused, rfl⟩
  · rcases first _ _ hfirst with haccepted | ⟨_, -, ⟨⟩⟩
    rcases later a _ _ hrest with hlater | ⟨status, hrefused, rfl⟩
    · exact .inl (haccepted.append hlater)
    · exact .inr ⟨status, hrefused.append haccepted, rfl⟩

theorem obeys_request {query : Query φ}
    (h : ∀ answer, (Event.answered query answer).refusal? = none) : (Exchange.request query).Obeys :=
  obeys_of_always (always_request h)

theorem obeys_notes (notes : List Note) : (Exchange.notes notes : Exchange φ Unit).Obeys :=
  obeys_of_always (always_notes fun _ _ => rfl)

theorem obeys_pure (a : α) : (pure a : Exchange φ α).Obeys := obeys_of_always trivial

theorem obeys_throw (status : Status) : (throw status : Exchange φ α).Obeys :=
  obeys_of_always trivial

theorem obeys_notes_return (notes : List Note) (a : α) :
    (do Exchange.notes notes; return a : Exchange φ α).Obeys :=
  obeys_bind (obeys_notes notes) fun _ => obeys_pure a

theorem obeys_send (text : String) (frame : φ) : (Exchange.send text frame).Obeys :=
  obeys_of_always (always_send (fun _ => rfl) fun _ _ => rfl)

/-- A lookup obeys if what it makes of a refusal is the status of the refusal. -/
theorem obeys_judged {query : Query φ} {f : query.Answer → Judgement α}
    (h : ∀ answer status, (Event.answered query answer).refusal? = some status →
      f answer = ⟨[], .error status⟩) :
    (do accept (f (← Exchange.request query)) : Exchange φ (Option α)).Obeys := by
  intro events outcome transcript
  rcases transcript.of_judged with ⟨-, rfl⟩ | ⟨answer, rfl, rfl⟩
  · exact .inl nofun
  · cases hrefusal : (Event.answered query answer).refusal? with
    | none =>
        refine .inl (List.forall_mem_cons.2 ⟨hrefusal, fun event hevent => ?_⟩)
        obtain ⟨note, -, rfl⟩ := List.mem_map.1 hevent
        rfl
    | some status =>
        rw [h answer status hrefusal]
        exact .inr ⟨status, ⟨[], _, rfl, nofun, hrefusal⟩, rfl⟩

theorem obeys_agent (token : AgentToken) (tolerant : Bool) :
    (Exchange.agent token tolerant : Exchange φ (Option AgentInfo)).Obeys := by
  refine obeys_judged fun answer status h => ?_
  match answer with
  | .error .unauthorized => cases h; cases tolerant <;> rfl
  | .error .forbidden => cases h; cases tolerant <;> rfl
  | .error .cancelled => cases h
  | .error (.unexpected ..) => cases h
  | .ok agent => cases h

theorem obeys_project (token : AgentToken) (id : String) :
    (Exchange.project token id : Exchange φ (Option ProjectInfo)).Obeys := by
  refine obeys_judged fun answer status h => ?_
  match answer with
  | .error .unauthorized => cases h; rfl
  | .error .forbidden => cases h; rfl
  | .error .cancelled => cases h
  | .error (.unexpected ..) => cases h
  | .ok project => cases h

end Exchange

/-- A stream ends when a credential is refused, and nothing happens afterwards. -/
theorem Plan.run_obeys {plan : Plan φ τ} (opening : plan.opening.Obeys)
    (tick : ∀ opened cursor, (plan.tick opened cursor).Obeys) (host : Host σ φ) {fuel : Nat}
    {s t : σ} {result : Option (Except Status Unit)} {events : List (Event φ)} {cursor : String}
    (run : plan.run host.recorded fuel (s, []) = (result, (t, events), cursor)) :
    Accepted events ∨ ∃ status, RefusedAtLast events status ∧ result = some (.error status) := by
  have hleads : ∀ {β : Type} {x : Exchange φ β} {before : List (Event φ)}, x.Obeys →
      Accepted before →
      Exchange.Leads host (fun _ => True) x (fun _ events => Accepted (before ++ events))
        fun result _ events => Accepted (before ++ events) ∨
          ∃ status, RefusedAtLast (before ++ events) status ∧ result = .error status := by
    intro β x before hx hbefore
    constructor
    · intro events a _ transcript
      rcases hx _ _ transcript with haccepted | ⟨_, -, ⟨⟩⟩
      exact hbefore.append haccepted
    · intro events status t _ transcript
      rcases hx _ _ transcript with haccepted | ⟨same, hrefused, hsame⟩
      · exact .inl (hbefore.append haccepted)
      · cases hsame
        exact .inr ⟨status, hrefused.append hbefore, rfl⟩
    · intro events query u t _ waits _
      rcases hx _ _ waits.transcript with haccepted | ⟨_, -, ⟨⟩⟩
      exact .inl (hbefore.append haccepted)
  have hled := run_leads (fun events _ => Accepted events)
    (fun result _ events _ => Accepted events ∨
      ∃ status, RefusedAtLast events status ∧ result = .error status)
    (fun _ _ _ _ => trivial) (fun _ => trivial)
    (fun opened before cursor hbefore => hleads (tick opened cursor) hbefore)
    (@hleads _ _ [] opening nofun) (fun _ _ _ haccepted => .inl haccepted) run
  cases result with
  | none => exact .inl (hled.1 rfl)
  | some ending =>
      rcases hled.2 ending rfl with haccepted | ⟨status, hrefused, rfl⟩
      · exact .inl haccepted
      · exact .inr ⟨status, hrefused, rfl⟩

end Refusals

namespace ConfigurationStream

theorem obeys_tick (settings : Settings) (token : AgentToken) (cursor : String) :
    (tick settings token cursor).Obeys := by
  refine Exchange.obeys_bind (Exchange.obeys_agent token true) fun found => ?_
  cases found with
  | none => exact Exchange.obeys_pure cursor
  | some agent =>
      refine Exchange.obeys_bind (Exchange.obeys_request fun _ => rfl) fun polled => ?_
      match polled with
      | .error e => exact Exchange.obeys_notes_return _ cursor
      | .ok ⟨false, commit⟩ => exact Exchange.obeys_notes_return _ cursor
      | .ok ⟨true, commit⟩ =>
          refine Exchange.obeys_bind (Exchange.obeys_notes _) fun _ => ?_
          refine Exchange.obeys_bind (Exchange.obeys_request fun _ => rfl) fun fetched => ?_
          split
          · exact Exchange.obeys_notes_return _ _
          · exact Exchange.obeys_bind (Exchange.obeys_send _ _) fun _ => Exchange.obeys_pure commit

end ConfigurationStream

namespace ManifestStream

theorem permits_accepted {commit : String} : Permits commit fun event => event.refusal? = none where
  note _ _ := rfl
  visit _ _ _ _ _ := rfl
  object _ _ _ := rfl

theorem obeys_sendTurn (budget : Budget) (project : ProjectInfo) (globs : List String)
    (commit : String) : (sendTurn budget project globs commit).Obeys := by
  refine Exchange.obeys_bind (Exchange.obeys_send _ _) fun _ => ?_
  refine Exchange.obeys_bind (Exchange.obeys_of_always
    (always_sendGlobs permits_accepted project globs _)) fun _ => ?_
  exact Exchange.obeys_bind (Exchange.obeys_send _ _) fun _ => Exchange.obeys_notes _

theorem obeys_tick (settings : Settings) (token : AgentToken) (projectId : String)
    (globs : List String) (cursor : String) :
    (tick settings token projectId globs cursor).Obeys := by
  refine Exchange.obeys_bind (Exchange.obeys_project token projectId) fun found => ?_
  cases found with
  | none => exact Exchange.obeys_pure cursor
  | some project =>
      refine Exchange.obeys_bind (Exchange.obeys_request fun _ => rfl) fun polled => ?_
      match polled with
      | .error e => exact Exchange.obeys_notes_return _ cursor
      | .ok ⟨false, commit⟩ => exact Exchange.obeys_notes_return _ cursor
      | .ok ⟨true, commit⟩ =>
          refine Exchange.obeys_bind (Exchange.obeys_notes _) fun _ => ?_
          refine Exchange.obeys_bind (obeys_sendTurn _ project globs commit) fun _ => ?_
          exact Exchange.obeys_notes_return _ commit

theorem obeys_opening (settings : Settings) (token : AgentToken) (globs : List String) :
    (opening settings token globs).Obeys := by
  refine Exchange.obeys_bind (Exchange.obeys_agent token false) fun _ => ?_
  extract_lets distinct
  split
  · exact Exchange.obeys_bind (Exchange.obeys_throw _) fun _ => Exchange.obeys_pure _
  · exact Exchange.obeys_pure _

end ManifestStream

/-! ### Streams -/

/-- A stream that lives with setbacks, so that its reader cannot tell them from finding nothing new,
and that ends with a refusal of a credential and does nothing afterwards. -/
structure Plan.IsSteadfast {φ τ : Type} (plan : Plan φ τ) : Prop where
  tolerant : plan.LivesWithSetbacks
  alike : ∀ {σ σ' : Type} {host : Host σ φ} {other : Host σ' φ} {same : σ → σ' → Prop},
    plan.Alike host other same → ∀ fuel {s t}, same s t →
      let first := plan.run host.recorded fuel (s, [])
      let second := plan.run other.recorded fuel (t, [])
      first.1 = second.1 ∧ same first.2.1.1 second.2.1.1 ∧
        sent first.2.1.2 = sent second.2.1.2 ∧ first.2.2 = second.2.2
  refused : ∀ {σ : Type} (host : Host σ φ) {fuel s t result events cursor},
    plan.run host.recorded fuel (s, []) = (result, (t, events), cursor) →
    ∀ before event after status, events = before ++ event :: after →
      event.refusal? = some status → result = some (.error status) ∧ after = []

theorem Plan.isSteadfast {φ τ : Type} {plan : Plan φ τ} (tolerant : plan.LivesWithSetbacks)
    (opening : plan.opening.Obeys) (tick : ∀ opened cursor, (plan.tick opened cursor).Obeys) :
    plan.IsSteadfast where
  tolerant := tolerant
  alike alike fuel _ _ h := run_alike tolerant alike fuel h
  refused host fuel s t result events cursor run before event after status hevents hrefusal := by
    rcases run_obeys opening tick host run with haccepted | ⟨same, hrefused, rfl⟩
    · have hnone := haccepted event (by simp [hevents])
      rw [hrefusal] at hnone
      cases hnone
    · rw [hevents] at hrefused
      obtain ⟨hafter, rfl⟩ := hrefused.split hrefusal
      exact ⟨rfl, hafter⟩

/-- Nothing that the metadata service answers says that its caller stopped waiting. -/
theorem answer_ne_cancelled {α : Type} (read : Document.Value → Option α)
    (response : Option Http.Response) : Hosting.answer read response ≠ .error .cancelled := by
  have haccept : Hosting.accept response ≠ .error .cancelled := by
    unfold Hosting.accept
    split
    · exact nofun
    · split
      · exact nofun
      · split
        · exact nofun
        · split <;> exact nofun
  unfold Hosting.answer
  cases hresponse : Hosting.accept response with
  | error e =>
      rw [hresponse] at haccept
      exact fun h => haccept (congrArg Except.error (Except.error.inj h))
  | ok r =>
      dsimp only [bind, Except.bind]
      split <;> exact nofun

/-- Both streams live with setbacks and end with refusals, and the metadata service gives no answer
that the streams take for a caller that stopped waiting. -/
theorem streams_steadfast (settings : Settings) (token : AgentToken) (projectId : String)
    (globs : List String) (commit : String) :
    (ConfigurationStream.plan settings token commit).IsSteadfast ∧
      (ManifestStream.plan settings token projectId globs commit).IsSteadfast ∧
      ∀ response, Hosting.agentAnswer response ≠ .error .cancelled ∧
        Hosting.projectAnswer response ≠ .error .cancelled := by
  refine ⟨?_, ?_, fun response => ⟨answer_ne_cancelled _ response, answer_ne_cancelled _ response⟩⟩
  · exact Plan.isSteadfast (ConfigurationStream.livesWithSetbacks settings token commit)
      (Exchange.obeys_pure ()) fun _ => ConfigurationStream.obeys_tick settings token
  · exact Plan.isSteadfast (ManifestStream.livesWithSetbacks settings token projectId globs commit)
      (ManifestStream.obeys_opening settings token globs)
      (ManifestStream.obeys_tick settings token projectId)

/-- A host that counts the ticks.  In the second of them its repository is broken or has nothing new,
and in the fourth the agent's credential is refused. -/
def flakyHost (broken : Bool) : Host Nat ConfigurationResponse where
  answer
    | .agent _, n => (some (if n = 3 then .error .unauthorized else .ok default), n)
    | .project .., n => (some (.ok default), n)
    | .poll _ _ last _, n =>
        (some (if n = 1 then (if broken then .error (.io "broken pipe") else .ok ⟨false, last⟩)
          else .ok (.ofCommit (if n = 0 then "first" else "second") last)), n)
    | .file .., n => (some (.ok (some [])), n)
    | .visit .., n => (some (.finished (.ok ())), n)
    | .send _, n => (some (.ok ()), n)
  record _ n := n
  start _ n := n
  isStopped _ := false
  pause _ n := (true, n + 1)

theorem flakyHost_run {α : Type} (d : Dialogue ConfigurationResponse α) (n : Nat) (h : n ≠ 1)
    (before : List (Event ConfigurationResponse)) :
    d.run (flakyHost true).toSurroundings.recorded (n, before) =
      d.run (flakyHost false).toSurroundings.recorded (n, before) := by
  induction d generalizing before with
  | done a => rfl
  | note note next ih => exact ih _
  | ask query next ih =>
      cases query with
      | poll server repository last name =>
          have hanswer : ∀ broken, (flakyHost broken).answer (.poll server repository last name) n =
              (some (.ok (.ofCommit (if n = 0 then "first" else "second") last)), n) := by
            intro broken
            simp [flakyHost, h]
          simp only [Dialogue.run, Surroundings.recorded, hanswer]
          exact ih _ _
      | agent token => exact ih _ _
      | project token id => exact ih _ _
      | file server repository revision path limit => exact ih _ _
      | visit server repository revision directory recursive => exact ih _ _
      | send frame => exact ih _ _

theorem flakyHost_alike (settings : Settings) (token : AgentToken) (commit : String) :
    (ConfigurationStream.plan settings token commit).Alike (flakyHost true) (flakyHost false) Eq where
  start h := h
  stopped _ := rfl
  pause h := ⟨rfl, congrArg (· + 1) h⟩
  opening h := ⟨rfl, h⟩
  tick := by
    rintro ⟨⟩ cursor n _ rfl
    by_cases h : n = 1
    · subst h
      let query := ConfigurationStream.headQuery default cursor
      refine ⟨.inr ⟨⟨.answered query (.error (.io "broken pipe")), ?_, trivial⟩,
        ⟨.answered query (.ok ⟨false, cursor⟩), ?_, rfl⟩⟩, rfl⟩
      · exact .tail _ (.head _)
      · exact .tail _ (.head _)
    · have hrun := flakyHost_run
        ((ConfigurationStream.plan settings token commit).tick () cursor).run n h []
      rw [Dialogue.run_recorded_append, Dialogue.run_recorded_append] at hrun
      simp only [Prod.mk.injEq, List.nil_append] at hrun
      exact ⟨.inl hrun.2.2, hrun.2.1⟩

/-- Four ticks with a setback in the second, which their reader cannot tell from finding nothing
new, and with a refusal in the last. -/
theorem streams_steadfast_flaky :
    let first := (ConfigurationStream.plan default default "none").run (flakyHost true).recorded 9 (0, [])
    let second := (ConfigurationStream.plan default default "none").run (flakyHost false).recorded 9 (0, [])
    first.1 = some (.error ⟨.unauthenticated, "unauthenticated"⟩) ∧ first.1 = second.1 ∧
      (sent first.2.1.2).map (·.commit) = ["first", "second"] ∧
      sent first.2.1.2 = sent second.2.1.2 := by
  intro first second
  obtain ⟨⟨-, halike, -⟩, -⟩ := streams_steadfast default default "project" [] "none"
  obtain ⟨hresult, -, hsent, -⟩ := halike (flakyHost_alike default default "none") 9 (rfl : 0 = 0)
  exact ⟨rfl, hresult, rfl, hsent⟩

end ManifestRelay.Session
