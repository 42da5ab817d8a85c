import ManifestRelay.Proofs.Session.Failures
import ManifestRelay.Proofs.Session.Sending
import ManifestRelay.Proofs.Session.Spelling

/-!
# Everything unexpected is captured, and nothing else

What a stream was answered tells all that went wrong.  A walk goes wrong in the middle of what is
answered: how it ended is found by carrying it out again, with the answers to the frames that it
sent.  For every failed step there is one thing captured if nobody expected the failure, in the
order of the steps, and nothing is captured besides.  A glob that cannot be read begins no walk; its
user is to blame, and nothing is captured of it either.
-/

namespace ManifestRelay.Session

open Fetch Metadata Relay Turn
open ManifestRelay.Stream

section Replaying

variable {φ α : Type}

/-! ### Dialogues that are carried out again -/

def Event.isAnswer : Event φ → Bool
  | .answered .. => true
  | .noted _ => false

def answers (events : List (Event φ)) : List (Event φ) := events.filter Event.isAnswer

theorem answers_append (first rest : List (Event φ)) :
    answers (first ++ rest) = answers first ++ answers rest :=
  List.filter_append _ _

theorem answers_cons_answered (query : Query φ) (answer : query.Answer) (rest : List (Event φ)) :
    answers (.answered query answer :: rest) = .answered query answer :: answers rest := rfl

theorem answers_map_noted (notes : List Note) :
    answers (notes.map .noted : List (Event φ)) = [] := by
  rw [answers, List.filter_map, List.map_eq_nil_iff, List.filter_eq_nil_iff]
  exact fun _ _ => Bool.false_ne_true

/-- Carry out a dialogue with answers on record: how it ends, and what it leaves of them, unless
there are too few. -/
def Dialogue.replay [DecidableEq φ] : Dialogue φ α → List (Event φ) →
    Option (α × List (Event φ))
  | .done a, record => some (a, record)
  | .note _ next, record => next.replay record
  | .ask query next, .answered other answer :: record =>
      if h : other = query then (next (h ▸ answer)).replay record else none
  | .ask _ _, .noted _ :: _ | .ask _ _, [] => none

variable [DecidableEq φ] {d : Dialogue φ α} {events : List (Event φ)}

theorem Transcript.replay_answers {a : α} (transcript : Transcript d events (some a))
    (more : List (Event φ)) : d.replay (answers events ++ more) = some (a, more) := by
  generalize houtcome : some a = outcome at transcript
  induction transcript with
  | done b =>
      cases houtcome
      rfl
  | note rest ih => exact ih houtcome
  | ask answer rest ih => exact (dif_pos rfl).trans (ih houtcome)
  | cut => cases houtcome

theorem Transcript.replay_answers_cut (transcript : Transcript d events none) :
    d.replay (answers events) = none := by
  generalize houtcome : none = outcome at transcript
  induction transcript with
  | done b => cases houtcome
  | note rest ih => exact ih houtcome
  | ask answer rest ih => exact (dif_pos rfl).trans (ih houtcome)
  | cut => rfl

end Replaying

namespace ManifestStream

/-! ### Failures of the stream of manifests -/

def pollText : String := "GitOps: repository poll failed"

/-- Where a turn stands: the globs whose walks are to come, and what was selected so far. -/
structure Standing where
  pending : List String
  selection : Selection

/-- How a walk ends that is shown to the selection of a turn, and where the turn stands then;
nothing if the record ends before the walk. -/
def Standing.walked? (st : Standing) (walk : Walk) (record : List (Event Frame)) :
    Option (Except FetchError Unit × Standing) :=
  match st.pending with
  | [] => none
  | glob :: later =>
      match Glob.Matcher.ofGlob (plainGlob glob) with
      | .error _ => none
      | .ok matcher =>
          (((walk.drive visitor).run (st.selection.withMatcher matcher)).replay record).map
            fun ended => (ended.1.1, ⟨later, ended.1.2⟩)

/-- The failure of a step, and where the turn stands behind it, when what is answered later is on
record. -/
def Standing.step (budget : Budget) (globs : List String) (st : Standing) (event : Event Frame)
    (later : List (Event Frame)) : Option Failure × Standing :=
  match event with
  | .answered (.visit ..) walk =>
      match st.walked? walk later with
      | none => (none, st)
      | some (.ok (), next) => (none, next)
      | some (.error e, next) => (some (.walk e), next)
  | .answered (.send (.headers _)) (.ok ()) => (none, ⟨globs, .ofBudget budget⟩)
  | event => (event.failure?, st)

def failures (budget : Budget) (globs : List String) :
    Standing → List (Event Frame) → List Failure
  | _, [] => []
  | st, event :: later =>
      (st.step budget globs event later).1.toList ++
        failures budget globs (st.step budget globs event later).2 later

section Tracking

variable (budget : Budget) (globs : List String)

def capturesOf (st : Standing) (record : List (Event Frame)) : List (String × String) :=
  (failures budget globs st record).filterMap (Failure.capture? pollText)

/-- What is captured on these events is what is to be captured of their failures, whatever is
answered later, and the turn stands here behind them. -/
def Tracks (st : Standing) (events : List (Event Frame)) (next : Standing) : Prop :=
  ∀ later, capturesOf budget globs st (answers events ++ later) =
    captured events ++ capturesOf budget globs next later

def Closes (st : Standing) (events : List (Event Frame)) : Prop :=
  capturesOf budget globs st (answers events) = captured events

variable {budget globs} {st mid next : Standing} {first rest events : List (Event Frame)}

theorem capturesOf_cons (st : Standing) (event : Event Frame) (later : List (Event Frame)) :
    capturesOf budget globs st (event :: later) =
      ((st.step budget globs event later).1.bind (Failure.capture? pollText)).toList ++
        capturesOf budget globs (st.step budget globs event later).2 later := by
  rw [capturesOf, failures, List.filterMap_append, Failure.filterMap_capture?_toList]
  rfl

theorem Tracks.nil (st : Standing) : Tracks budget globs st [] st := fun _ => rfl

theorem Tracks.append (before : Tracks budget globs st first mid)
    (after : Tracks budget globs mid rest next) : Tracks budget globs st (first ++ rest) next := by
  intro later
  rw [answers_append, List.append_assoc, before, after, captured_append, List.append_assoc]

theorem Tracks.closes_append (before : Tracks budget globs st first mid)
    (after : Closes budget globs mid rest) : Closes budget globs st (first ++ rest) := by
  rw [Closes, answers_append, before, after, captured_append]

theorem Tracks.closes (tracks : Tracks budget globs st events next) :
    Closes budget globs st events := by
  have hend : Closes budget globs next [] := rfl
  rw [← List.append_nil events]
  exact tracks.closes_append hend

theorem Tracks.append_notes (tracks : Tracks budget globs st events next) {notes : List Note}
    (noted : notes.filterMap Note.capture? = []) :
    Tracks budget globs st (events ++ notes.map .noted) next := by
  refine tracks.append fun later => ?_
  rw [answers_map_noted, captured_map_noted, noted]
  rfl

section Steps

variable {query : Query Frame} {answer : query.Answer}

theorem tracks_failed (failure : Failure)
    (step : ∀ later, st.step budget globs (.answered query answer) later = (some failure, next))
    {notes : List Note}
    (noted : notes.filterMap Note.capture? = (failure.capture? pollText).toList) :
    Tracks budget globs st (.answered query answer :: notes.map .noted) next := by
  intro later
  have hanswers : answers (.answered query answer :: notes.map .noted) =
      [.answered query answer] := congrArg _ (answers_map_noted notes)
  rw [hanswers, captured_cons_answered, captured_map_noted, noted, List.singleton_append,
    capturesOf_cons, step]
  rfl

theorem tracks_fine
    (step : ∀ later, st.step budget globs (.answered query answer) later = (none, next)) :
    Tracks budget globs st [.answered query answer] next := by
  intro later
  change capturesOf budget globs st (.answered query answer :: later) = _
  rw [capturesOf_cons, step]
  rfl

end Steps

/-! ### Walks -/

def IsPieceAnswer (event : Event Frame) : Prop :=
  ∃ source data result, event = .answered (.send (.object source data)) result

/-- Pieces of files that cannot be sent are not captured. -/
theorem tracks_pieces (h : ∀ event ∈ events, IsPieceAnswer event) :
    Tracks budget globs st events st := by
  induction events with
  | nil => exact .nil st
  | cons event rest ih =>
      obtain ⟨hevent, hrest⟩ := List.forall_mem_cons.1 h
      have hfirst : Tracks budget globs st [event] st := by
        obtain ⟨source, data, result, rfl⟩ := hevent
        cases result with
        | ok _ => exact tracks_fine fun _ => rfl
        | error e =>
            have hnotes : [].filterMap Note.capture? =
              ((Failure.send e).capture? pollText).toList := rfl
            exact tracks_failed (.send e) (fun _ => rfl) hnotes
      exact hfirst.append (ih hrest)

theorem captured_of_pieces (h : ∀ event ∈ events, IsPieceAnswer event) : captured events = [] := by
  refine List.filterMap_eq_nil_iff.2 fun event hevent => ?_
  obtain ⟨source, data, result, rfl⟩ := h event hevent
  rfl

theorem isPieceAnswer_of_drive {walk : Walk} {selection : Selection}
    {outcome : Option (Except FetchError Unit × Selection)}
    (transcript : Transcript ((walk.drive visitor).run selection) events outcome) :
    ∀ event ∈ events, IsPieceAnswer event :=
  transcript.of_always (always_drive (fun source data result => ⟨source, data, result, rfl⟩) walk _)

theorem capture?_walkNotes (e : FetchError) :
    (walkNotes e).filterMap Note.capture? = ((Failure.walk e).capture? pollText).toList := by
  cases e <;> rfl

section Notes

variable {query : Query Frame} {answer : query.Answer} {walk : Walk}

theorem answers_visit :
    answers (.answered query answer :: (openingNotes walk).map .noted ++ events) =
      .answered query answer :: answers events := by
  rw [answers_append, answers_cons_answered, answers_map_noted, List.singleton_append]

theorem captured_visit :
    captured (.answered query answer :: (openingNotes walk).map .noted ++ events) =
      captured events := by
  have hquiet : (openingNotes walk).filterMap Note.capture? = [] := by
    cases walk <;> rfl
  rw [captured_append, captured_cons_answered, captured_map_noted, hquiet, List.nil_append]

end Notes

section Walks

variable {glob : String} {matcher : Glob.Matcher} {walk : Walk} {pending : List String}
  {selection : Selection} {server : RepositoryServer} {repository : Repository}
  {revision directory : String} {recursive : Bool}
  (plain : Glob.Matcher.ofGlob (plainGlob glob) = .ok matcher)

include plain

theorem walked?_of_transcript {result : Except FetchError Unit} {left : Selection}
    (transcript : Transcript ((walk.drive visitor).run (selection.withMatcher matcher)) events
      (some (result, left))) (later : List (Event Frame)) :
    Standing.walked? ⟨glob :: pending, selection⟩ walk (answers events ++ later) =
      some (result, ⟨pending, left⟩) := by
  simp only [Standing.walked?, plain, transcript.replay_answers later, Option.map_some]

theorem tracks_visit {left : Selection}
    (transcript : Transcript ((walk.drive visitor).run (selection.withMatcher matcher)) events
      (some (.ok (), left))) :
    Tracks budget globs ⟨glob :: pending, selection⟩
      (.answered (.visit server repository revision directory recursive) walk ::
        (openingNotes walk).map .noted ++ events) ⟨pending, left⟩ := by
  intro later
  rw [answers_visit, captured_visit, List.cons_append, capturesOf_cons, Standing.step,
    walked?_of_transcript plain transcript]
  exact tracks_pieces (isPieceAnswer_of_drive transcript) later

theorem closes_visit_failed {left : Selection} {e : FetchError}
    (transcript : Transcript ((walk.drive visitor).run (selection.withMatcher matcher)) events
      (some (.error e, left))) :
    Closes budget globs ⟨glob :: pending, selection⟩
      (.answered (.visit server repository revision directory recursive) walk ::
        (openingNotes walk).map .noted ++ (events ++ (walkNotes e).map .noted)) := by
  have hpieces := isPieceAnswer_of_drive transcript
  have hrest : capturesOf budget globs ⟨pending, left⟩ (answers events) = [] :=
    (tracks_pieces hpieces).closes.trans (captured_of_pieces hpieces)
  have hwalked : Standing.walked? ⟨glob :: pending, selection⟩ walk (answers events ++ []) =
      some (.error e, ⟨pending, left⟩) := walked?_of_transcript plain transcript []
  rw [List.append_nil] at hwalked
  rw [Closes, answers_visit, captured_visit, answers_append, answers_map_noted, List.append_nil,
    captured_append, captured_of_pieces hpieces, captured_map_noted, capture?_walkNotes,
    capturesOf_cons, Standing.step, hwalked]
  dsimp only
  rw [hrest, List.append_nil, Option.bind_some, List.nil_append]

theorem closes_visit_cut
    (transcript : Transcript ((walk.drive visitor).run (selection.withMatcher matcher)) events
      none) :
    Closes budget globs ⟨glob :: pending, selection⟩
      (.answered (.visit server repository revision directory recursive) walk ::
        (openingNotes walk).map .noted ++ events) := by
  have hwalked : Standing.walked? ⟨glob :: pending, selection⟩ walk (answers events) = none := by
    simp only [Standing.walked?, plain, transcript.replay_answers_cut, Option.map_none]
  rw [Closes, answers_visit, captured_visit, capturesOf_cons, Standing.step, hwalked]
  exact (tracks_pieces (isPieceAnswer_of_drive transcript)).closes

end Walks

/-! ### Exchanges -/

/-- What is captured in an exchange is what is to be captured of its failures, together with what
has gone before; the turn stands in one of these ways where it goes on with a value. -/
def IsTracked {α : Type} (budget : Budget) (globs : List String) (st : Standing)
    (before : List (Event Frame)) (x : Exchange Frame α) (next : α → Standing → Prop) : Prop :=
  ∀ events outcome, Transcript x.run events outcome →
    (Stops outcome → Closes budget globs st (before ++ events)) ∧
    ∀ a, outcome = some (.ok a) → ∃ t, next a t ∧ Tracks budget globs st (before ++ events) t

namespace IsTracked

variable {α β : Type} {before : List (Event Frame)} {x : Exchange Frame α}
  {f : α → Exchange Frame β} {after : α → Standing → Prop} {last : β → Standing → Prop}

theorem pure (next : Standing) {a : α} (h : after a next)
    (tracks : Tracks budget globs st before next) :
    IsTracked budget globs st before (pure a) after := by
  intro events outcome transcript
  cases transcript
  rw [List.append_nil]
  refine ⟨fun stops => absurd rfl (stops a), fun b hb => ?_⟩
  cases hb
  exact ⟨next, h, tracks⟩

theorem throw {status : Status} (closes : Closes budget globs st before) :
    IsTracked budget globs st before (throw status) after := by
  intro events outcome transcript
  cases transcript
  rw [List.append_nil]
  refine ⟨fun _ => closes, fun b hb => ?_⟩
  cases hb

theorem closes (tracked : IsTracked budget globs st before x after)
    {outcome : Option (Except Status α)} (transcript : Transcript x.run events outcome) :
    Closes budget globs st (before ++ events) := by
  obtain ⟨hcloses, hgoes⟩ := tracked events outcome transcript
  rcases outcome with _ | status | a
  · exact hcloses fun b hb => by cases hb
  · exact hcloses fun b hb => by cases hb
  · obtain ⟨t, -, htracks⟩ := hgoes a rfl
    exact htracks.closes

theorem of_tracks (tracks : Tracks budget globs st before mid)
    (later : IsTracked budget globs mid [] x after) : IsTracked budget globs st before x after := by
  intro events outcome transcript
  obtain ⟨hcloses, hgoes⟩ := later events outcome transcript
  rw [List.nil_append] at hcloses hgoes
  refine ⟨fun hstops => tracks.closes_append (hcloses hstops), fun a ha => ?_⟩
  obtain ⟨t, ht, hrest⟩ := hgoes a ha
  exact ⟨t, ht, tracks.append hrest⟩

theorem bind (first : IsTracked budget globs st before x after)
    (later : ∀ a t, after a t → IsTracked budget globs t [] (f a) last) :
    IsTracked budget globs st before (x >>= f) last := by
  intro events outcome transcript
  rcases transcript.stops_or_goes_on with
    ⟨hstops, earlier, hearlier, hfirst⟩ | ⟨a, one, two, rfl, hone, htwo⟩
  · exact ⟨fun _ => (first _ _ hfirst).1 hearlier, fun b hb => absurd hb (hstops b)⟩
  · obtain ⟨t, ht, htracks⟩ := (first _ _ hone).2 a rfl
    rw [← List.append_assoc]
    exact (later a t ht).of_tracks htracks _ _ htwo

theorem lift_bind {d : Dialogue Frame α}
    (cut : ∀ events, Transcript d events none → Closes budget globs st (before ++ events))
    (later : ∀ events a, Transcript d events (some a) →
      IsTracked budget globs st (before ++ events) (f a) last) :
    IsTracked budget globs st before (ExceptT.lift d >>= f) last := by
  intro events outcome transcript
  rcases transcript.of_exchange_bind with ⟨rfl, hcut⟩ | ⟨status, rfl, hfailed⟩ |
    ⟨a, one, two, rfl, hone, htwo⟩
  · rcases hcut.of_lift with ⟨-, hd⟩ | ⟨_, ⟨⟩, -⟩
    refine ⟨fun _ => cut events hd, fun b hb => ?_⟩
    cases hb
  · rcases hfailed.of_lift with ⟨⟨⟩, -⟩ | ⟨_, ⟨⟩, -⟩
  · rcases hone.of_lift with ⟨⟨⟩, -⟩ | ⟨_, ⟨⟩, hd⟩
    rw [← List.append_assoc]
    exact later one a hd _ _ htwo

theorem request_bind {query : Query Frame} {f : query.Answer → Exchange Frame β}
    (closes : Closes budget globs st before)
    (later : ∀ answer, IsTracked budget globs st (before ++ [.answered query answer]) (f answer)
      last) :
    IsTracked budget globs st before (Exchange.request query >>= f) last := by
  refine lift_bind (fun events hcut => ?_) fun events answer hasked => ?_
  · cases hcut with
    | ask _ rest => cases rest
    | cut => rwa [List.append_nil]
  · cases hasked with
    | ask _ rest =>
        cases rest
        exact later answer

theorem notes_bind {notes : List Note} {f : Unit → Exchange Frame β}
    (later : IsTracked budget globs st (before ++ notes.map .noted) (f ()) last) :
    IsTracked budget globs st before (Exchange.notes notes >>= f) last := by
  intro events outcome transcript
  rcases transcript.of_exchange_bind with ⟨rfl, hcut⟩ | ⟨status, rfl, hfailed⟩ |
    ⟨_, one, two, rfl, hone, htwo⟩
  · cases hcut.of_notes.1
  · cases hfailed.of_notes.1
  · obtain ⟨-, rfl⟩ := hone.of_notes
    rw [← List.append_assoc]
    exact later _ _ htwo

theorem notes {notes : List Note} {after : Unit → Standing → Prop} (h : after () next)
    (tracks : Tracks budget globs st (before ++ notes.map .noted) next) :
    IsTracked budget globs st before (Exchange.notes notes) after := by
  intro events outcome transcript
  obtain ⟨rfl, rfl⟩ := transcript.of_notes
  exact ⟨fun stops => absurd rfl (stops ()), fun _ _ => ⟨next, h, tracks⟩⟩

theorem fail {notes : List Note} {status : Status}
    (closes : Closes budget globs st (before ++ notes.map .noted)) :
    IsTracked budget globs st before (Exchange.fail notes status) after :=
  notes_bind (throw closes)

end IsTracked

/-! ### Parts of the stream -/

theorem isTracked_send (next : Standing) {text : String} {frame : Frame}
    (sent : ∀ later, st.step budget globs (.answered (.send frame) (.ok ())) later = (none, next))
    (failed : ∀ e later, st.step budget globs (.answered (.send frame) (.error e)) later =
      (some (.send e), st)) :
    IsTracked budget globs st [] (Exchange.send text frame) fun _ t => t = next := by
  refine .request_bind rfl fun answer => ?_
  match answer with
  | .ok () => exact .pure next rfl (tracks_fine sent)
  | .error e =>
      have hfailed := tracks_failed (.send e) (failed e) (capture?_sendFailure text e.message)
      exact .fail hfailed.closes

theorem isTracked_accept {α : Type} {query : Query Frame} {answer : query.Answer}
    {j : Judgement α} {after : Option α → Standing → Prop} (h : ∀ found, after found st)
    (tracks : Tracks budget globs st (.answered query answer :: j.notes.map .noted) st) :
    IsTracked budget globs st [.answered query answer] (Exchange.accept j) after := by
  refine .notes_bind ?_
  cases j.result with
  | ok found => exact .pure st (h found) tracks
  | error status => exact .throw tracks.closes

theorem isTracked_project (token : AgentToken) (id : String) :
    IsTracked budget globs st [] (Exchange.project token id : Exchange Frame _)
      fun _ t => t = st := by
  refine .request_bind rfl fun answer => isTracked_accept (fun _ => rfl) ?_
  match answer with
  | .ok project => exact tracks_fine fun _ => rfl
  | .error e => exact tracks_failed (.project e) (fun _ => rfl) (capture?_judge _ e)

theorem isTracked_agent (token : AgentToken) (tolerant : Bool) :
    IsTracked budget globs st [] (Exchange.agent token tolerant : Exchange Frame _)
      fun _ t => t = st := by
  refine .request_bind rfl fun answer => isTracked_accept (fun _ => rfl) ?_
  have hnotes : (if tolerant then judgeAgent answer else (judgeAgent answer).strict).notes =
      (judgeAgent answer).notes := by
    cases tolerant with
    | true => rfl
    | false => exact notes_strict _
  rw [hnotes]
  match answer with
  | .ok agent => exact tracks_fine fun _ => rfl
  | .error e => exact tracks_failed (.agent e) (fun _ => rfl) (capture?_judge _ e)

theorem isTracked_watch {glob : String} {matcher : Glob.Matcher} {pending : List String}
    {selection : Selection} {server : RepositoryServer} {repository : Repository}
    {revision directory : String} {recursive : Bool} {walk : Walk}
    (plain : Glob.Matcher.ofGlob (plainGlob glob) = .ok matcher) :
    IsTracked budget globs ⟨glob :: pending, selection⟩
      (.answered (.visit server repository revision directory recursive) walk ::
        (openingNotes walk).map .noted)
      (watch walk (selection.withMatcher matcher)) fun left t => t = ⟨pending, left⟩ := by
  refine .lift_bind (fun events hcut => closes_visit_cut plain hcut) ?_
  rintro events ⟨result, left⟩ hdriven
  match result with
  | .ok () => exact .pure _ rfl (tracks_visit plain hdriven)
  | .error e =>
      refine .fail ?_
      rw [List.append_assoc]
      exact closes_visit_failed plain hdriven

theorem isTracked_sendGlob (project : ProjectInfo) (commit glob : String) (pending : List String)
    (selection : Selection) :
    IsTracked budget globs ⟨glob :: pending, selection⟩ [] (sendGlob project commit glob selection)
      fun left t => t = ⟨pending, left⟩ := by
  unfold sendGlob
  extract_lets scope plain
  split
  · next e hrefused => exact .fail rfl
  · next matcher hmatcher =>
    refine .request_bind rfl fun walk => .notes_bind ?_
    exact isTracked_watch hmatcher

theorem isTracked_sendGlobs (project : ProjectInfo) (commit : String) (pending : List String)
    (selection : Selection) :
    IsTracked budget globs ⟨pending, selection⟩ [] (sendGlobs project commit pending selection)
      fun _ _ => True := by
  induction pending generalizing selection with
  | nil => exact .pure _ trivial (.nil _)
  | cons glob rest ih =>
      refine .bind (isTracked_sendGlob project commit glob rest selection) ?_
      rintro left t rfl
      exact ih left

theorem isTracked_sendTurn (project : ProjectInfo) (commit : String) :
    IsTracked budget globs st [] (sendTurn budget project globs commit) fun _ _ => True := by
  refine .bind (isTracked_send ⟨globs, .ofBudget budget⟩ (fun _ => rfl) fun _ _ => rfl) ?_
  rintro ⟨⟩ t rfl
  refine .bind (isTracked_sendGlobs project commit globs _) fun _ t _ => ?_
  refine .bind (isTracked_send t (fun _ => rfl) fun _ _ => rfl) ?_
  rintro ⟨⟩ t rfl
  exact .notes trivial ((Tracks.nil t).append_notes rfl)

theorem isTracked_tick (settings : Settings) (token : AgentToken) (projectId cursor : String) :
    IsTracked settings.budget globs st [] (tick settings token projectId globs cursor)
      fun _ _ => True := by
  refine .bind (isTracked_project token projectId) ?_
  rintro found t rfl
  cases found with
  | none => exact .pure t trivial (.nil t)
  | some project =>
      refine .request_bind rfl fun polled => ?_
      rcases polled with e | ⟨_ | _, commit⟩
      · exact .notes_bind (.pure t trivial
          (tracks_failed (.poll e) (fun _ => rfl) (capture?_failure _ _ _)))
      · refine .notes_bind (.pure t trivial ?_)
        exact (tracks_fine fun _ => rfl).append_notes rfl
      · refine .notes_bind (.of_tracks ((tracks_fine fun _ => rfl).append_notes rfl) ?_)
        refine .bind (isTracked_sendTurn project commit) fun _ u _ => ?_
        exact .notes_bind (.pure u trivial ((Tracks.nil u).append_notes rfl))

theorem isTracked_opening (settings : Settings) (token : AgentToken) (requested : List String) :
    IsTracked budget globs st [] (opening settings token requested) fun _ _ => True := by
  refine .bind (isTracked_agent token false) ?_
  rintro found t rfl
  extract_lets distinct
  split
  · exact .throw rfl
  · exact .pure t trivial (.nil t)

end Tracking

/-! ### Runs -/

theorem eq_firstMentions_of_opening {σ : Type} {surroundings : Surroundings σ Frame}
    {settings : Settings} {token : AgentToken} {globs opened : List String} {s t : σ}
    (h : (opening settings token globs).run.run surroundings s = (some (.ok opened), t)) :
    opened = firstMentions globs := by
  rw [run_opening] at h
  rcases hagent : (Exchange.agent token false).run.run surroundings s with ⟨_ | _ | agent, u⟩
  · rw [hagent] at h
    cases h
  · rw [hagent] at h
    cases h
  · rw [hagent] at h
    have hadmitted : admitted settings (firstMentions globs) = .ok opened :=
      Option.some.inj (congrArg Prod.fst h)
    unfold admitted at hadmitted
    split at hadmitted
    · cases hadmitted
    · cases hadmitted
      rfl

/-- The stream of manifests, whose ticks know the globs before it has opened. -/
def foreknowing (settings : Settings) (token : AgentToken) (projectId : String)
    (globs : List String) (commit : String) : Plan Frame (List String) :=
  { plan settings token projectId globs commit with
    tick := fun _ => tick settings token projectId (firstMentions globs) }

def Standing.initial (budget : Budget) : Standing := ⟨[], .ofBudget budget⟩

section Runs

variable {σ : Type} (settings : Settings) (token : AgentToken) (projectId : String)
  (globs : List String) (commit : String) (host : Host σ Frame) (fuel : Nat) (s : σ)

theorem run_foreknowing :
    (plan settings token projectId globs commit).run host fuel s =
      (foreknowing settings token projectId globs commit).run host fuel s := by
  refine Plan.run_with_tick fun opened t hopened => ?_
  rw [eq_firstMentions_of_opening hopened]
  rfl

/-- Whatever a stream of manifests is answered, what is captured is what is to be captured of its
failures. -/
theorem closes_run :
    Closes settings.budget (firstMentions globs) (.initial settings.budget)
      ((plan settings token projectId globs commit).run host.recorded fuel (s, [])).2.1.2 := by
  rw [run_foreknowing]
  refine ((foreknowing settings token projectId globs commit).run_induction host
    (p := fun _ => True) (fun _ _ _ _ => trivial) (fun _ => trivial)
    (fun events _ => ∃ st, Tracks settings.budget (firstMentions globs)
      (.initial settings.budget) events st)
    (fun events _ => Closes settings.budget (firstMentions globs)
      (.initial settings.budget) events) ?_ ?_ ?_ fuel s).1
  · rintro events cursor ⟨st, htracks⟩
    exact htracks.closes
  · intro events outcome transcript
    have hopening : IsTracked settings.budget (firstMentions globs) (.initial settings.budget) []
      (opening settings token globs) fun _ _ => True := isTracked_opening settings token globs
    refine ⟨hopening.closes transcript, fun opened hopened => ?_⟩
    obtain ⟨t, -, htracks⟩ := (hopening events outcome transcript).2 opened hopened
    exact ⟨t, htracks⟩
  · rintro opened before cursor events outcome ⟨st, htracks⟩ transcript -
    obtain ⟨hcloses, hgoes⟩ := (isTracked_tick settings token projectId cursor).of_tracks htracks
      events outcome transcript
    refine ⟨fun next hnext => ?_, hcloses⟩
    obtain ⟨t, -, hall⟩ := hgoes next hnext
    exact ⟨t, hall⟩

end Runs

end ManifestStream

/-- Whatever the two streams are answered, exactly the failures that nobody expected are captured,
one for each failed step and in the order of the steps. -/
theorem captures_unexpected_failures {σ : Type} (settings : Settings) (token : AgentToken)
    (commit : String) (fuel : Nat) (s : σ) :
    (∀ host : Host σ Wire.ConfigurationResponse,
      let events :=
        ((ConfigurationStream.plan settings token commit).run host.recorded fuel (s, [])).2.1.2
      captured events = (events.filterMap Event.failure?).filterMap
        (Failure.capture? ConfigurationStream.pollText)) ∧
    ∀ (host : Host σ Frame) (projectId : String) (globs : List String),
      let events := ((ManifestStream.plan settings token projectId globs commit).run host.recorded
        fuel (s, [])).2.1.2
      captured events = (ManifestStream.failures settings.budget
        (ManifestStream.firstMentions globs) (.initial settings.budget) (answers events)).filterMap
        (Failure.capture? ManifestStream.pollText) :=
  ⟨fun host => ConfigurationStream.isCaptured_run settings token commit host fuel s,
    fun host projectId globs =>
      (ManifestStream.closes_run settings token projectId globs commit host fuel s).symm⟩

/-- A host whose repositories have a new commit and break when they are walked. -/
def breaking : Host Unit Frame where
  answer
    | .agent _, s => (some (.ok default), s)
    | .project .., s => (some (.ok default), s)
    | .poll .., s => (some (.ok ⟨true, "c"⟩), s)
    | .file .., s => (none, s)
    | .visit .., s => (some (.finished (.error (.broken "disk"))), s)
    | .send _, s => (some (.ok ()), s)
  record _ s := s
  start _ s := s
  isStopped _ := false
  pause _ s := (true, s)

example : captured ((ManifestStream.plan ⟨1, 1, 1, 1, 1, ⟨9, 9, 9⟩⟩ default "p" ["*"] "").run
    breaking.recorded 1 ((), [])).2.1.2 =
      [("GitOps: failed to get objects to synchronize", "internal error: disk")] := by
  decide +kernel

end ManifestRelay.Session
