import Mathlib
import ManifestRelay.Proofs.Session.Sending
import ManifestRelay.Proofs.Fetch.Pieces
import ManifestRelay.Proofs.Snapshot.Restraint

/-!
# What is left of a budget

A selection tells the walk how much of a file may follow, which is never more
than what is left of its total.  So a restrained walk cannot overdraw the total,
however many files and globs share it and however the peer answers, and a
stream that is shown walks of snapshots does not break down.
-/

namespace ManifestRelay

open Fetch Metadata Relay Snapshot Turn
open ManifestRelay.Stream

/-! ### Statuses -/

namespace Session

section Failing

variable {φ α β : Type} {p : Event φ → Prop} {kind : Status → Prop}

/-- While everything that happens has a property, an exchange fails with no status but those of a
kind. -/
def Exchange.FailsOnly (p : Event φ → Prop) (kind : Status → Prop) (x : Exchange φ α) : Prop :=
  ∀ events status, (∀ event ∈ events, p event) →
    Transcript x.run events (some (.error status)) → kind status

namespace Exchange

theorem failsOnly_pure (a : α) : (pure a : Exchange φ α).FailsOnly p kind := by
  intro events status _ transcript
  cases transcript

theorem failsOnly_throw {status : Status} (h : kind status) :
    (throw status : Exchange φ α).FailsOnly p kind := by
  intro events same _ transcript
  cases transcript
  exact h

theorem failsOnly_bind {x : Exchange φ α} {f : α → Exchange φ β} (first : x.FailsOnly p kind)
    (later : ∀ a, (f a).FailsOnly p kind) : (x >>= f).FailsOnly p kind := by
  intro events status hp transcript
  rcases transcript.of_exchange_bind with ⟨⟨⟩, -⟩ | ⟨_, ⟨⟩, hfirst⟩ | ⟨a, before, rest, rfl, -, hrest⟩
  · exact first events status hp hfirst
  · exact later a rest status (fun event h => hp event (List.mem_append_right before h)) hrest

theorem failsOnly_request_bind {query : Query φ} {f : query.Answer → Exchange φ β}
    (later : ∀ answer, p (.answered query answer) → (f answer).FailsOnly p kind) :
    (Exchange.request query >>= f).FailsOnly p kind := by
  intro events status hp transcript
  rcases transcript.of_exchange_bind with ⟨⟨⟩, -⟩ | ⟨_, ⟨⟩, hfirst⟩ |
    ⟨answer, before, rest, rfl, hfirst, hrest⟩
  · rcases hfirst.of_request with ⟨⟨⟩, -⟩ | ⟨_, ⟨⟩, -⟩
  · rcases hfirst.of_request with ⟨⟨⟩, -⟩ | ⟨_, ⟨⟩, rfl⟩
    exact later answer (hp _ List.mem_cons_self) rest status
      (fun event h => hp event (List.mem_append_right _ h)) hrest

theorem failsOnly_notes (notes : List Note) :
    (Exchange.notes notes : Exchange φ Unit).FailsOnly p kind := by
  intro events status _ transcript
  cases transcript.of_notes.1

theorem failsOnly_fail {notes : List Note} {status : Status} (h : kind status) :
    (Exchange.fail notes status : Exchange φ α).FailsOnly p kind :=
  failsOnly_bind (failsOnly_notes notes) fun _ => failsOnly_throw h

theorem failsOnly_accept {j : Judgement α} (h : ∀ status, j.result = .error status → kind status) :
    (Exchange.accept j : Exchange φ (Option α)).FailsOnly p kind := by
  refine failsOnly_bind (failsOnly_notes _) fun _ => ?_
  split
  · exact failsOnly_pure _
  · next status hstatus => exact failsOnly_throw (h status hstatus)

theorem failsOnly_send {text : String} {frame : φ} (h : kind Exchange.sendFailed) :
    (Exchange.send text frame).FailsOnly p kind := by
  refine failsOnly_request_bind fun answer _ => ?_
  cases answer with
  | ok _ => exact failsOnly_pure _
  | error e => exact failsOnly_fail h

end Exchange

end Failing

/-! ### Selections -/

namespace ManifestStream

/-- What may still follow of the file at hand is left of the total. -/
def Covers (s : Selection) (allowance : Option Int) : Prop :=
  ∀ limit, allowance = some limit → limit ≤ s.remaining

theorem covers_none (s : Selection) : Covers s none := nofun

theorem covers_some {s : Selection} {limit : Int} (h : limit ≤ s.remaining) :
    Covers s (some limit) := by
  intro same hsame
  cases hsame
  exact h

/-- An offer leaves the total as it is, and whatever is taken is covered by it. -/
theorem of_offer {s t : Selection} {path : String} {decision : Except FetchError Decision}
    (offer : s.offer path = (decision, t)) :
    IsUnbroken decision ∧ ∀ limit, decision = .ok (.take limit) → limit ≤ t.remaining := by
  unfold Selection.offer at offer
  split at offer
  · cases offer
    exact ⟨isUnbroken_error rfl, nofun⟩
  · dsimp only at offer
    split at offer
    · cases offer
      refine ⟨isUnbroken_ok _, fun limit h => ?_⟩
      cases h
    · split at offer
      · cases offer
        exact ⟨isUnbroken_error rfl, nofun⟩
      · cases offer
        refine ⟨isUnbroken_ok _, fun limit h => ?_⟩
        cases h
        exact Int.min_le_left _ _

/-! ### Chunks -/

section Chunks

variable {α β : Type} {s t : Selection} {path : String} {data : List UInt8}
  {events : List (Event Frame)}

theorem of_visit_bind {x : ExceptT FetchError (StateT Selection (Dialogue Frame)) α}
    {f : α → ExceptT FetchError (StateT Selection (Dialogue Frame)) β} {result : Except FetchError β}
    (transcript : Transcript ((x >>= f).run.run s) events (some (result, t))) :
    (∃ e, result = .error e ∧ Transcript (x.run.run s) events (some (.error e, t))) ∨
      ∃ a u first rest, events = first ++ rest ∧
        Transcript (x.run.run s) first (some (.ok a, u)) ∧
        Transcript ((f a).run.run u) rest (some (result, t)) := by
  rcases Transcript.of_bind transcript with ⟨⟨⟩, -⟩ | ⟨⟨first, u⟩, before, rest, rfl, hfirst, hrest⟩
  cases first with
  | ok a => exact .inr ⟨a, u, before, rest, rfl, hfirst, hrest⟩
  | error e =>
      cases hrest with
      | done => exact .inl ⟨e, rfl, by rwa [List.append_nil]⟩

theorem charge_eq_ok (fits : data.length ≤ s.remaining) :
    s.charge data.length = (.ok (), { s with remaining := s.remaining - data.length }) := by
  rw [Selection.charge, if_neg (Int.not_lt.2 (Int.sub_nonneg_of_le fits))]

theorem of_sender_chunk {result : Except FetchError Bool} (fits : data.length ≤ s.remaining)
    (transcript : Transcript ((sender.chunk path data).run.run s) events (some (result, t))) :
    IsUnbroken result ∧ t.remaining = s.remaining - data.length := by
  rcases of_visit_bind transcript with ⟨e, rfl, hcharge⟩ | ⟨⟨⟩, u, first, rest, rfl, hcharge, hrest⟩
  · have hfailed : Transcript (.done (s.charge data.length)) events (some (.error e, t)) := hcharge
    rw [charge_eq_ok fits] at hfailed
    cases hfailed
  · have hcharged : Transcript (.done (s.charge data.length)) first (some (.ok (), u)) := hcharge
    rw [charge_eq_ok fits] at hcharged
    cases hcharged
    cases hrest with
    | ask answer hlast =>
        cases answer with
        | ok _ =>
            cases hlast
            exact ⟨isUnbroken_ok false, rfl⟩
        | error e =>
            cases hlast
            exact ⟨isUnbroken_error rfl, rfl⟩

theorem of_sender_chunks {pieces : List (List UInt8)} {result : Except FetchError Bool}
    (fits : pieces.flatten.length ≤ s.remaining)
    (transcript : Transcript ((sender.chunks path pieces).run.run s) events (some (result, t))) :
    IsUnbroken result ∧ s.remaining - pieces.flatten.length ≤ t.remaining ∧
      t.remaining ≤ s.remaining := by
  induction pieces generalizing s events with
  | nil =>
      cases transcript
      exact ⟨isUnbroken_ok false, Int.sub_le_self _ (Int.natCast_nonneg _), Int.le_refl _⟩
  | cons piece rest ih =>
      rw [List.flatten_cons, List.length_append, Int.natCast_add] at fits ⊢
      have hfits : (piece.length : Int) ≤ s.remaining := by omega
      rcases of_visit_bind transcript with ⟨e, rfl, hpiece⟩ | ⟨stop, u, _, _, -, hpiece, hrest⟩
      · obtain ⟨hunbroken, hleft⟩ := of_sender_chunk hfits hpiece
        exact ⟨isUnbroken_error (hunbroken e rfl), by omega, by omega⟩
      · obtain ⟨-, hleft⟩ := of_sender_chunk hfits hpiece
        cases stop with
        | true =>
            cases hrest
            exact ⟨isUnbroken_ok true, by omega, by omega⟩
        | false =>
            obtain ⟨hunbroken, hlower, hupper⟩ := ih (by omega) hrest
            exact ⟨hunbroken, by omega, by omega⟩

/-- However a chunk that fits is cut to size, it comes off the total, all of it or some. -/
theorem of_chunk {result : Except FetchError Bool} (fits : data.length ≤ s.remaining)
    (transcript : Transcript ((visitor.chunk path data).run.run s) events (some (result, t))) :
    IsUnbroken result ∧ s.remaining - data.length ≤ t.remaining ∧ t.remaining ≤ s.remaining := by
  have hpieces : Transcript ((sender.chunks path (piecesOf (maxChunkSize - 1) data)).run.run s)
      events (some (result, t)) := transcript
  have hflat := flatten_piecesOf (maxChunkSize - 1) data
  have hchunks := of_sender_chunks (by rw [hflat]; exact fits) hpieces
  rwa [hflat] at hchunks

end Chunks

/-! ### Walks -/

/-- Driven from a selection, a walk can come to a place where this walk is ahead of this
selection. -/
inductive Reaches (walk : Walk) (s : Selection) : Walk → Selection → Prop where
  | start : Reaches walk s walk s
  | entry {path : String} {next : Except FetchError Decision → Walk} {t u : Selection}
      {decision : Except FetchError Decision} (before : Reaches walk s (.entry path next) t)
      (offer : t.offer path = (decision, u)) : Reaches walk s (next decision) u
  | chunk {path : String} {data : List UInt8} {next : Except FetchError Bool → Walk}
      {t u : Selection} {result : Except FetchError Bool} {events : List (Event Frame)}
      (before : Reaches walk s (.chunk path data next) t)
      (call : Transcript ((visitor.chunk path data).run.run t) events (some (result, u))) :
      Reaches walk s (next result) u

inductive HandsOver (path : String) (pieces : List (List UInt8)) (s : Selection) :
    List (List UInt8) → Selection → Prop where
  | start : HandsOver path pieces s pieces s
  | next {piece : List UInt8} {rest : List (List UInt8)} {t u : Selection}
      {events : List (Event Frame)} (before : HandsOver path pieces s (piece :: rest) t)
      (call : Transcript ((sender.chunk path piece).run.run t) events (some (.ok false, u))) :
      HandsOver path pieces s rest u

/-- Driven from a selection, a walk can come to charge so many bytes to this selection. -/
def Charges (walk : Walk) (s : Selection) (size : Nat) (t : Selection) : Prop :=
  ∃ path data next u piece rest, Reaches walk s (.chunk path data next) u ∧
    HandsOver path (piecesOf (maxChunkSize - 1) data) u (piece :: rest) t ∧ size = piece.length

section Walks

variable {walk ahead : Walk} {s t : Selection}

theorem reaches_of_drive {first : Walk} {u : Selection} {events : List (Event Frame)}
    {result : Except FetchError Unit} (before : Reaches first u walk s)
    (transcript : Transcript ((walk.drive visitor).run s) events (some (result, t))) :
    Reaches first u (.finished result) t ∨
      result = .ok () ∧ ∃ directory revision, Reaches first u (.missing directory revision) t := by
  induction walk generalizing s events with
  | finished result =>
      cases transcript
      exact .inl before
  | missing directory revision =>
      cases transcript
      exact .inr ⟨rfl, directory, revision, before⟩
  | entry path next ih =>
      rcases hoffer : s.offer path with ⟨decision, v⟩
      have hlater : Transcript (((next (s.offer path).1).drive visitor).run (s.offer path).2)
          events (some (result, t)) := transcript
      rw [hoffer] at hlater
      exact ih decision (before.entry hoffer) hlater
  | chunk path data next ih =>
      rcases Transcript.of_bind transcript with ⟨⟨⟩, -⟩ | ⟨⟨taken, v⟩, _, rest, -, hcall, hlater⟩
      exact ih taken (before.chunk hcall) hlater

/-- Wherever a restrained walk comes to, what lies ahead is restrained, and what may follow of the
file at hand is left of the total. -/
theorem Reaches.restrained (reaches : Reaches walk s ahead t) (restrained : walk.IsRestrained none) :
    ∃ allowance, ahead.IsRestrained allowance ∧ Covers t allowance := by
  induction reaches with
  | start => exact ⟨none, restrained, covers_none s⟩
  | @entry path next t u decision before offer ih =>
      obtain ⟨allowance, ⟨hskip, htake, herror⟩, -⟩ := ih
      obtain ⟨hunbroken, hcovered⟩ := of_offer offer
      match decision with
      | .ok .skip => exact ⟨none, hskip, covers_none u⟩
      | .ok (.take limit) => exact ⟨some limit, htake limit, covers_some (hcovered limit rfl)⟩
      | .error e => exact ⟨none, herror e (hunbroken e rfl), covers_none u⟩
  | @chunk path data next t u result events before call ih =>
      obtain ⟨allowance, ⟨limit, rfl, hfits, hgoesOn, herror⟩, hcovers⟩ := ih
      have hcovered := hcovers limit rfl
      obtain ⟨hunbroken, hleft, -⟩ := of_chunk (Int.le_trans hfits hcovered) call
      cases result with
      | ok stop => exact ⟨some (limit - data.length), hgoesOn stop, covers_some (by omega)⟩
      | error e => exact ⟨none, herror e (hunbroken e rfl), covers_none u⟩

theorem Reaches.fits {path : String} {data : List UInt8} {next : Except FetchError Bool → Walk}
    (reaches : Reaches walk s (.chunk path data next) t) (restrained : walk.IsRestrained none) :
    data.length ≤ t.remaining := by
  obtain ⟨allowance, ⟨limit, rfl, hfits, -⟩, hcovers⟩ := reaches.restrained restrained
  exact Int.le_trans hfits (hcovers limit rfl)

theorem HandsOver.fits {path : String} {pieces rest : List (List UInt8)}
    (hands : HandsOver path pieces s rest t) (fits : pieces.flatten.length ≤ s.remaining) :
    rest.flatten.length ≤ t.remaining := by
  induction hands with
  | start => exact fits
  | @next piece rest t u events before call ih =>
      rw [List.flatten_cons, List.length_append, Int.natCast_add] at ih
      have hpiece : (piece.length : Int) ≤ t.remaining := by omega
      obtain ⟨-, hleft⟩ := of_sender_chunk hpiece call
      omega

theorem Charges.fits {size : Nat} (charges : Charges walk s size t)
    (restrained : walk.IsRestrained none) : size ≤ t.remaining := by
  obtain ⟨path, data, next, u, piece, rest, hreaches, hhands, rfl⟩ := charges
  have hfits := hhands.fits (by rw [flatten_piecesOf]; exact hreaches.fits restrained)
  rw [List.flatten_cons, List.length_append] at hfits
  omega

theorem isUnbroken_drive {events : List (Event Frame)} {result : Except FetchError Unit}
    (restrained : walk.IsRestrained none)
    (transcript : Transcript ((walk.drive visitor).run s) events (some (result, t))) :
    IsUnbroken result := by
  rcases reaches_of_drive .start transcript with hfinished | ⟨rfl, -⟩
  · obtain ⟨allowance, hunbroken, -⟩ := hfinished.restrained restrained
    exact hunbroken
  · exact isUnbroken_ok ()

end Walks

end ManifestStream

/-! ### Streams -/

/-- The walks that a stream is shown are of snapshots, each as some disk has it at the time. -/
def Event.ShowsSnapshots : Event Frame → Prop
  | .answered (.visit _ repository revision directory recursive) walk =>
      ∃ disk, walk = Snapshot.visit disk repository revision directory recursive
  | _ => True

def IsOrderly (status : Status) : Prop := status.code ≠ .internal

theorem isOrderly_of_refusal {e : MetadataError} {status : Status} (h : refusal e = some status) :
    IsOrderly status := by
  cases e <;> cases h <;> exact nofun

theorem isOrderly_judge {α : Type} {text : String} {answer : Except MetadataError α}
    {status : Status} (h : (judge text answer).result = .error status) : IsOrderly status := by
  unfold judge at h
  split at h
  · cases h
  · split at h
    · next refused => cases h; exact isOrderly_of_refusal refused
    · cases h

theorem isOrderly_strict {α : Type} {j : Judgement α} {status : Status}
    (judged : ∀ status, j.result = .error status → IsOrderly status)
    (h : j.strict.result = .error status) : IsOrderly status := by
  unfold Judgement.strict at h
  split at h
  · cases h
    exact nofun
  · exact judged status h

namespace Exchange

variable {φ : Type} {p : Event φ → Prop}

theorem failsOnly_agent (token : AgentToken) (tolerant : Bool) :
    (Exchange.agent token tolerant : Exchange φ (Option AgentInfo)).FailsOnly p IsOrderly := by
  refine failsOnly_request_bind fun answer _ => failsOnly_accept fun status hstatus => ?_
  cases tolerant with
  | true => exact isOrderly_judge hstatus
  | false => exact isOrderly_strict (fun _ => isOrderly_judge) hstatus

theorem failsOnly_project (token : AgentToken) (id : String) :
    (Exchange.project token id : Exchange φ (Option ProjectInfo)).FailsOnly p IsOrderly :=
  failsOnly_request_bind fun _ _ => failsOnly_accept fun _ => isOrderly_judge

end Exchange

theorem Plan.run_failsOnly {σ φ τ : Type} {plan : Plan φ τ} {host : Host σ φ} {p : Event φ → Prop}
    {kind : Status → Prop} (upheld : host.Uphold p) (noted : ∀ note, p (.noted note))
    (opening : plan.opening.FailsOnly p kind)
    (tick : ∀ opened cursor, (plan.tick opened cursor).FailsOnly p kind) {fuel : Nat} {s : σ}
    {status : Status} (run : (plan.run host fuel s).1 = some (.error status)) : kind status := by
  have hleads : ∀ {α : Type} {x : Exchange φ α}, x.FailsOnly p kind →
      Exchange.Leads host p x (fun _ _ => True)
        fun result _ _ => ∀ status, result = .error status → kind status := by
    intro α x hx
    constructor
    · exact fun _ _ => trivial
    · intro events status t hp transcript same hsame
      cases hsame
      exact hx events status hp transcript
    · exact fun _ _ _ _ hok => nomatch hok
  rw [← (plan.run_recorded host fuel s).1] at run
  rcases hrun : plan.run host.recorded fuel (s, []) with ⟨result, ⟨t, events⟩, cursor⟩
  rw [hrun] at run
  have hled := run_leads (fun _ _ => True)
    (fun result _ _ _ => ∀ status, result = .error status → kind status) upheld noted
    (fun opened before cursor _ => hleads (tick opened cursor)) (hleads opening)
    (fun _ _ _ _ _ hok => nomatch hok) hrun
  exact hled.2 _ run status rfl

namespace ManifestStream

theorem isOrderly_walkStatus {e : FetchError} (h : e.isBroken = false) :
    IsOrderly (walkStatus e) := by
  unfold walkStatus
  split
  · exact nofun
  · cases h
  · split <;> exact nofun

theorem failsOnly_failWalk {α : Type} {p : Event Frame → Prop} {e : FetchError}
    (h : e.isBroken = false) : (failWalk e : Exchange Frame α).FailsOnly p IsOrderly :=
  Exchange.failsOnly_fail (isOrderly_walkStatus h)

theorem failsOnly_watch {p : Event Frame → Prop} {walk : Walk}
    (restrained : walk.IsRestrained none) (s : Selection) :
    (watch walk s).FailsOnly p IsOrderly := by
  intro events status hp transcript
  rcases Transcript.of_exchange_bind transcript with ⟨⟨⟩, -⟩ | ⟨_, ⟨⟩, hdrive⟩ |
    ⟨⟨result, t⟩, first, rest, rfl, hdrive, hrest⟩
  · rcases Transcript.of_bind hdrive with ⟨⟨⟩, -⟩ | ⟨_, _, _, -, -, hdone⟩
    cases hdone
  · rcases Transcript.of_bind hdrive with ⟨⟨⟩, -⟩ | ⟨_, before, _, rfl, hdriven, hdone⟩
    cases hdone
    have hunbroken := isUnbroken_drive restrained hdriven
    cases result with
    | ok _ => cases hrest
    | error e =>
        exact failsOnly_failWalk (hunbroken e rfl) rest status
          (fun event h => hp event (List.mem_append_right _ h)) hrest

theorem failsOnly_sendGlob (project : ProjectInfo) (commit glob : String) (s : Selection) :
    (sendGlob project commit glob s).FailsOnly Event.ShowsSnapshots IsOrderly := by
  unfold sendGlob
  extract_lets scope plain
  split
  · exact failsOnly_failWalk rfl
  · refine Exchange.failsOnly_request_bind fun walk hshown => ?_
    obtain ⟨disk, rfl⟩ := hshown
    refine Exchange.failsOnly_bind (Exchange.failsOnly_notes _) fun _ => ?_
    exact failsOnly_watch (isRestrained_visit disk _ _ _ _) _

theorem failsOnly_sendGlobs (project : ProjectInfo) (commit : String) (globs : List String)
    (s : Selection) :
    (sendGlobs project commit globs s).FailsOnly Event.ShowsSnapshots IsOrderly := by
  induction globs generalizing s with
  | nil => exact Exchange.failsOnly_pure s
  | cons glob rest ih =>
      exact Exchange.failsOnly_bind (failsOnly_sendGlob project commit glob s) ih

theorem failsOnly_send {p : Event Frame → Prop} (frame : Frame) :
    (Exchange.send sendFailedText frame).FailsOnly p IsOrderly :=
  Exchange.failsOnly_send nofun

theorem failsOnly_sendTurn (budget : Turn.Budget) (project : ProjectInfo) (globs : List String)
    (commit : String) :
    (sendTurn budget project globs commit).FailsOnly Event.ShowsSnapshots IsOrderly := by
  refine Exchange.failsOnly_bind (failsOnly_send _) fun _ => ?_
  refine Exchange.failsOnly_bind (failsOnly_sendGlobs project commit globs _) fun _ => ?_
  exact Exchange.failsOnly_bind (failsOnly_send _) fun _ => Exchange.failsOnly_notes _

theorem failsOnly_tick (settings : Settings) (token : AgentToken) (projectId : String)
    (globs : List String) (cursor : String) :
    (tick settings token projectId globs cursor).FailsOnly Event.ShowsSnapshots IsOrderly := by
  have hnotes : ∀ (notes : List Note) (next : String), (do Exchange.notes notes; return next :
      Exchange Frame String).FailsOnly Event.ShowsSnapshots IsOrderly := fun notes next =>
    Exchange.failsOnly_bind (Exchange.failsOnly_notes notes) fun _ => Exchange.failsOnly_pure next
  refine Exchange.failsOnly_bind (Exchange.failsOnly_project token projectId) fun answer => ?_
  cases answer with
  | none => exact Exchange.failsOnly_pure cursor
  | some project =>
      refine Exchange.failsOnly_request_bind fun polled _ => ?_
      match polled with
      | .error e => exact hnotes _ cursor
      | .ok ⟨false, commit⟩ => exact hnotes _ cursor
      | .ok ⟨true, commit⟩ =>
          refine Exchange.failsOnly_bind (Exchange.failsOnly_notes _) fun _ => ?_
          refine Exchange.failsOnly_bind (failsOnly_sendTurn _ project globs commit) fun _ => ?_
          exact hnotes _ commit

theorem failsOnly_opening (settings : Settings) (token : AgentToken) (globs : List String) :
    (opening settings token globs).FailsOnly Event.ShowsSnapshots IsOrderly := by
  refine Exchange.failsOnly_bind (Exchange.failsOnly_agent token false) fun _ => ?_
  extract_lets distinct
  split
  · exact Exchange.failsOnly_bind (Exchange.failsOnly_throw nofun) fun _ =>
      Exchange.failsOnly_pure _
  · exact Exchange.failsOnly_pure _

/-- A stream that is shown walks of snapshots does not break down.  No such walk ever charges more
to a selection than is left, whatever the selection, nor does it break down before the visitor, and
every place that it can start from has a path from the top of its tree. -/
theorem run_orderly {σ : Type} (host : Host σ Frame) (shown : host.Uphold Event.ShowsSnapshots)
    (settings : Settings) (token : AgentToken) (projectId : String) (globs : List String)
    (commit : String) (fuel : Nat) (s : σ) :
    (∀ status, ((plan settings token projectId globs commit).run host fuel s).1 =
        some (.error status) → status.code ≠ .internal) ∧
      (∀ disk repository revision directory recursive selection,
        (∀ size t, Charges (visit disk repository revision directory recursive) selection size t →
          0 ≤ t.remaining - size) ∧
        ∀ events result t, Transcript
            (((visit disk repository revision directory recursive).drive visitor).run selection)
            events (some (result, t)) →
          ∀ reason, result ≠ .error (.broken reason)) ∧
      ∀ tree directory start, descend tree directory = .ok start → tree <+: start := by
  refine ⟨fun status run => ?_, fun disk repository revision directory recursive selection => ?_,
    fun _ _ _ leads => prefix_of_descend leads⟩
  · exact Plan.run_failsOnly shown (fun _ => trivial) (failsOnly_opening settings token globs)
      (failsOnly_tick settings token projectId) run
  · have hrestrained := isRestrained_visit disk repository revision directory recursive
    refine ⟨fun size t charges => Int.sub_nonneg_of_le (charges.fits hrestrained), ?_⟩
    intro events result t transcript reason hbroken
    cases isUnbroken_drive hrestrained transcript _ hbroken

/-- A disk with one file everywhere, which has grown to three bytes since it was measured to have
one. -/
def growingDisk : Disk := fun _ => .ok (.directory [("a", .file ⟨1, [97, 98, 99]⟩)])

def growingHost : Host Unit Frame where
  answer
    | .agent _, s => (some (.ok default), s)
    | .project .., s => (some (.ok default), s)
    | .poll _ _ last _, s => (some (.ok (.ofCommit "commit" last)), s)
    | .file .., s => (some (.ok none), s)
    | .visit _ repository revision directory recursive, s =>
        (some (visit growingDisk repository revision directory recursive), s)
    | .send .trailers, s => (some (.error .closed), s)
    | .send _, s => (some (.ok ()), s)
  record _ s := s
  start _ s := s
  isStopped _ := false
  pause _ s := (true, s)

theorem growingHost_shows : growingHost.Uphold Event.ShowsSnapshots := by
  intro query s answer h
  cases query with
  | visit server repository revision directory recursive =>
      obtain rfl := Option.some.inj h
      exact ⟨growingDisk, rfl⟩
  | agent token => trivial
  | project token id => trivial
  | poll server repository last name => trivial
  | file server repository revision path limit => trivial
  | send frame => trivial

/-- What a file has grown by is refused where it goes beyond the budget.  Where it does not, it is
sent, and the stream fails for want of a peer. -/
theorem run_orderly_growing :
    growingHost.Uphold Event.ShowsSnapshots ∧
      ((((visit growingDisk default "commit" "." false).drive visitor).run
          ⟨some ⟨[[.literal 'a']]⟩, 2, 2, 10, 0, []⟩).run growingHost.toSurroundings ()).1.map
        Prod.fst = some (.error (.fileTooBig "a" 3 2)) ∧
      ((plan ⟨20000, 20000, 50000, 131072, 100, ⟨3, 3, 10⟩⟩ default "project" ["a"]
          "none").run growingHost 1 ()).1 = some (.error ⟨.unavailable, "gRPC send failed"⟩) ∧
      (⟨.unavailable, "gRPC send failed"⟩ : Status).code ≠ .internal := by
  have hrun : ((plan ⟨20000, 20000, 50000, 131072, 100, ⟨3, 3, 10⟩⟩ default "project" ["a"]
      "none").run growingHost 1 ()).1 = some (.error ⟨.unavailable, "gRPC send failed"⟩) := by
    cbv
  refine ⟨growingHost_shows, by cbv, hrun, ?_⟩
  exact (run_orderly growingHost growingHost_shows _ default "project" ["a"] "none" 1 ()).1 _ hrun

end ManifestStream

end Session

end ManifestRelay
