import ManifestRelay.Proofs.Session.Transcript

/-!
# Runs on record

Surroundings that keep a record give the same answers as before, and what they
have on record is a transcript.  So what is true of all transcripts of a
stream's dialogues is true of its runs, whatever the surroundings are.
-/

namespace ManifestRelay

open Relay
open ManifestRelay.Stream

/-! ### Runs of polling loops -/

def Polling.Verdict.ending? {ε : Type} : Verdict ε → Option (Ending ε)
  | .again => none
  | .done => some .done
  | .failed reason => some (.failed reason)
  | .interrupted => some .stopped

/-- What holds of a loop before its checks, the number of which counts the pauses behind it, what
holds before its pauses, and what holds at its end. -/
structure Polling.Poller.Rule {σ ε : Type} (poller : Poller σ ε) (steady checked : Nat → σ → Prop)
    (ended : Ending ε → σ → Prop) : Prop where
  stopped : ∀ {n s}, steady n s → poller.isStopped s = true → ended .stopped s
  again : ∀ {n s t}, steady n s → poller.isStopped s = false → poller.check s = (.again, t) →
    checked n t
  ends : ∀ {n s t verdict ending}, steady n s → poller.isStopped s = false →
    poller.check s = (verdict, t) → verdict.ending? = some ending → ended ending t
  passed : ∀ {n s t}, checked n s → poller.pause s = (true, t) → steady (n + 1) t
  cut : ∀ {n s t}, checked n s → poller.pause s = (false, t) → ended .stopped t

/-- A rule of single checks and pauses is one of whole runs. -/
theorem Polling.Poller.Rule.run {σ ε : Type} {poller : Poller σ ε} {steady checked : Nat → σ → Prop}
    {ended : Ending ε → σ → Prop} (rule : poller.Rule steady checked ended) {fuel n : Nat} {s t : σ}
    {result : Option (Ending ε)} (h : steady n s) (run : poller.run fuel s = (result, t)) :
    (result = none → steady (n + fuel) t) ∧ ∀ ending, result = some ending → ended ending t := by
  induction fuel generalizing n s with
  | zero =>
      cases run
      exact ⟨fun _ => h, nofun⟩
  | succ fuel ih =>
      rw [Poller.run] at run
      cases hstopped : poller.isStopped s with
      | true =>
          rw [hstopped, if_pos rfl] at run
          cases run
          refine ⟨nofun, fun ending hending => ?_⟩
          cases hending
          exact rule.stopped h hstopped
      | false =>
          rw [hstopped, if_neg Bool.false_ne_true] at run
          rcases hcheck : poller.check s with ⟨verdict, u⟩
          rw [hcheck] at run
          have hends : ∀ ending, verdict.ending? = some ending → ended ending u := fun ending =>
            rule.ends h hstopped hcheck
          cases verdict with
          | done =>
              cases run
              exact ⟨nofun, hends⟩
          | failed reason =>
              cases run
              exact ⟨nofun, hends⟩
          | interrupted =>
              cases run
              exact ⟨nofun, hends⟩
          | again =>
              have hchecked := rule.again h hstopped hcheck
              rcases hpause : poller.pause u with ⟨passed, v⟩
              dsimp only at run
              rw [hpause] at run
              cases passed with
              | true =>
                  rw [Nat.add_comm fuel, ← Nat.add_assoc]
                  exact ih (rule.passed hchecked hpause) run
              | false =>
                  cases run
                  refine ⟨nofun, fun ending hending => ?_⟩
                  cases hending
                  exact rule.cut hchecked hpause

/-- Two loops run alike if their checks and their pauses do, from any states that correspond to each
other and into such states. -/
theorem Polling.Poller.run_related {σ τ ε : Type} (first : Poller σ ε) (second : Poller τ ε)
    (same : σ → τ → Prop)
    (stopped : ∀ {s t}, same s t → first.isStopped s = second.isStopped t)
    (check : ∀ {s t}, same s t → (first.check s).1 = (second.check t).1 ∧
      same (first.check s).2 (second.check t).2)
    (pause : ∀ {s t}, same s t → (first.pause s).1 = (second.pause t).1 ∧
      same (first.pause s).2 (second.pause t).2) (fuel : Nat) {s : σ} {t : τ} (h : same s t) :
    (first.run fuel s).1 = (second.run fuel t).1 ∧
      same (first.run fuel s).2 (second.run fuel t).2 := by
  induction fuel generalizing s t with
  | zero => exact ⟨rfl, h⟩
  | succ fuel ih =>
      rw [Poller.run, Poller.run, stopped h]
      cases second.isStopped t with
      | true => exact ⟨rfl, h⟩
      | false =>
          obtain ⟨hverdict, hstate⟩ := check h
          rcases hfirst : first.check s with ⟨verdict, u⟩
          rcases hsecond : second.check t with ⟨same, v⟩
          rw [hfirst, hsecond] at hverdict hstate
          cases hverdict
          cases verdict with
          | done => exact ⟨rfl, hstate⟩
          | failed reason => exact ⟨rfl, hstate⟩
          | interrupted => exact ⟨rfl, hstate⟩
          | again =>
              obtain ⟨hpassed, hpause⟩ := pause hstate
              rcases hfirst : first.pause u with ⟨passed, w⟩
              rcases hsecond : second.pause v with ⟨same, x⟩
              rw [hfirst, hsecond] at hpassed hpause
              cases hpassed
              simp only [hfirst, hsecond, Bool.false_eq_true, if_false]
              cases passed with
              | true => exact ih hpause
              | false => exact ⟨rfl, hpause⟩

/-- A loop whose states are those of another loop, with something added that neither checks nor
pauses look at, runs as the other does. -/
theorem Polling.Poller.run_forget {σ τ ε : Type} (larger : Poller σ ε) (smaller : Poller τ ε)
    (forget : σ → τ) (stopped : ∀ s, larger.isStopped s = smaller.isStopped (forget s))
    (check : ∀ s, (larger.check s).1 = (smaller.check (forget s)).1 ∧
      forget (larger.check s).2 = (smaller.check (forget s)).2)
    (pause : ∀ s, (larger.pause s).1 = (smaller.pause (forget s)).1 ∧
      forget (larger.pause s).2 = (smaller.pause (forget s)).2) (fuel : Nat) (s : σ) :
    (larger.run fuel s).1 = (smaller.run fuel (forget s)).1 ∧
      forget (larger.run fuel s).2 = (smaller.run fuel (forget s)).2 := by
  refine run_related larger smaller (fun s t => forget s = t) ?_ ?_ ?_ fuel rfl
  · rintro s t rfl
    exact stopped s
  · rintro s t rfl
    exact check s
  · rintro s t rfl
    exact pause s

namespace Session

variable {σ φ τ α : Type}

/-! ### Surroundings that keep a record -/

def Surroundings.recorded (surroundings : Surroundings σ φ) :
    Surroundings (σ × List (Event φ)) φ where
  answer query := fun (s, events) =>
    let (answer, s) := surroundings.answer query s
    (answer, s, events ++ (answer.map (Event.answered query)).toList)
  record note := fun (s, events) => (surroundings.record note s, events ++ [.noted note])

def Host.recorded (host : Host σ φ) : Host (σ × List (Event φ)) φ where
  toSurroundings := host.toSurroundings.recorded
  start age := fun (s, events) => (host.start age s, events)
  isStopped := fun (s, _) => host.isStopped s
  pause duration := fun (s, events) =>
    let (passed, s) := host.pause duration s
    (passed, s, events)

def Surroundings.Uphold (surroundings : Surroundings σ φ) (p : Event φ → Prop) : Prop :=
  ∀ query s answer, (surroundings.answer query s).1 = some answer → p (.answered query answer)

/-- Keeping a record changes nothing, and the record is a transcript.  A dialogue that is cut short
was waiting for the answer to some query. -/
theorem Dialogue.run_recorded (surroundings : Surroundings σ φ) (d : Dialogue φ α) (s : σ)
    (before : List (Event φ)) :
    ∃ events, d.run surroundings.recorded (s, before) =
        ((d.run surroundings s).1, (d.run surroundings s).2, before ++ events) ∧
      Transcript d events (d.run surroundings s).1 ∧
      ((d.run surroundings s).1 = none →
        ∃ query u, Waits query d events ∧ surroundings.answer query u =
          (none, (d.run surroundings s).2)) ∧
      ∀ p, surroundings.Uphold p → (∀ note, p (.noted note)) → ∀ event ∈ events, p event := by
  induction d generalizing s before with
  | done a =>
      exact ⟨[], by simp [Dialogue.run], .done a, nofun, fun _ _ _ => nofun⟩
  | note note next ih =>
      obtain ⟨events, hrun, htranscript, hwaits, hp⟩ :=
        ih (surroundings.record note s) (before ++ [.noted note])
      refine ⟨.noted note :: events, ?_, .note htranscript, fun hnone => ?_,
        fun p upheld noted => ?_⟩
      · rw [List.append_cons]
        exact hrun
      · obtain ⟨query, u, hwait, hanswer⟩ := hwaits hnone
        exact ⟨query, u, .note hwait, hanswer⟩
      · exact List.forall_mem_cons.2 ⟨noted note, hp p upheld noted⟩
  | ask query next ih =>
      rcases h : surroundings.answer query s with ⟨_ | answer, t⟩
      · refine ⟨[], ?_, ?_, fun _ => ⟨query, s, .here, ?_⟩, fun _ _ _ => nofun⟩
        · simp [Dialogue.run, Surroundings.recorded, h]
        · rw [Dialogue.run, h]
          exact .cut
        · rw [Dialogue.run, h]
      · obtain ⟨events, hrun, htranscript, hwaits, hp⟩ :=
          ih answer t (before ++ [.answered query answer])
        have hrest : (Dialogue.ask query next).run surroundings s =
            (next answer).run surroundings t := by rw [Dialogue.run, h]
        refine ⟨.answered query answer :: events, ?_, ?_, fun hnone => ?_,
          fun p upheld noted => ?_⟩
        · rw [hrest, List.append_cons, ← hrun]
          simp [Dialogue.run, Surroundings.recorded, h]
        · rw [hrest]
          exact .ask answer htranscript
        · rw [hrest] at hnone ⊢
          obtain ⟨other, u, hwait, hanswer⟩ := hwaits hnone
          exact ⟨other, u, .ask answer hwait, hanswer⟩
        · refine List.forall_mem_cons.2 ⟨upheld query s answer ?_, hp p upheld noted⟩
          rw [h]

theorem Plan.run_recorded (plan : Plan φ τ) (host : Host σ φ) (fuel : Nat) (s : σ) :
    (plan.run host.recorded fuel (s, [])).1 = (plan.run host fuel s).1 ∧
      (plan.run host.recorded fuel (s, [])).2.1.1 = (plan.run host fuel s).2.1 ∧
      (plan.run host.recorded fuel (s, [])).2.2 = (plan.run host fuel s).2.2 := by
  obtain ⟨first, hrun, -, -⟩ :=
    Dialogue.run_recorded host.toSurroundings plan.opening.run s []
  have hrecorded : plan.opening.run.run host.recorded.toSurroundings (s, []) = _ := hrun
  rcases hopening : plan.opening.run.run host.toSurroundings s with ⟨outcome, t⟩
  rw [hopening] at hrecorded
  rw [Plan.run, Plan.run, hrecorded, hopening]
  match outcome with
  | none => exact ⟨rfl, rfl, rfl⟩
  | some (.error status) => exact ⟨rfl, rfl, rfl⟩
  | some (.ok opened) =>
      have hloop := Polling.Poller.run_forget (plan.poller host.recorded opened)
        (plan.poller host opened) (fun state => (state.1.1, state.2)) (fun _ => rfl) ?_
        (fun _ => ⟨rfl, rfl⟩) fuel (host.recorded.start plan.maxAge (t, [] ++ first), plan.cursor)
      · obtain ⟨hending, hstate⟩ := hloop
        have hstart : (host.recorded.start plan.maxAge (t, [] ++ first)).1 =
            host.start plan.maxAge t := rfl
        rw [hstart] at hending hstate
        exact ⟨congrArg (Option.map result) hending, congrArg Prod.fst hstate, congrArg Prod.snd hstate⟩
      · rintro ⟨⟨u, before⟩, cursor⟩
        obtain ⟨events, hrun, -, -⟩ :=
          Dialogue.run_recorded host.toSurroundings (plan.tick opened cursor).run u before
        have hrecorded : (plan.tick opened cursor).run.run host.recorded.toSurroundings
            (u, before) = _ := hrun
        rcases htick : (plan.tick opened cursor).run.run host.toSurroundings u with ⟨outcome, v⟩
        rw [htick] at hrecorded
        simp only [Plan.poller, hrecorded, htick]
        match outcome with
        | none => exact ⟨rfl, rfl⟩
        | some (.error status) => exact ⟨rfl, rfl⟩
        | some (.ok next) => exact ⟨rfl, rfl⟩

/-- A stream runs as one whose ticks are the same for what its opening leads to. -/
theorem Plan.run_with_tick {plan : Plan φ τ} {host : Host σ φ} {fuel : Nat} {s : σ}
    {tick : τ → String → Exchange φ String}
    (h : ∀ opened t, plan.opening.run.run host.toSurroundings s = (some (.ok opened), t) →
      plan.tick opened = tick opened) :
    plan.run host fuel s = { plan with tick }.run host fuel s := by
  rcases hopening : plan.opening.run.run host.toSurroundings s with ⟨_ | _ | opened, t⟩
  · simp only [Plan.run, hopening]
  · simp only [Plan.run, hopening]
  · have hpoller : plan.poller host opened = { plan with tick }.poller host opened := by
      simp only [Plan.poller, h opened t hopening]
    simp only [Plan.run, hopening, hpoller]

/-- What follows from any course of an exchange: one thing where the exchange goes on with a value,
and another where it ends the stream by a failure, or because it is cut short while it waits. -/
structure Exchange.Leads (host : Host σ φ) (p : Event φ → Prop) (x : Exchange φ α)
    (steady : α → List (Event φ) → Prop)
    (ended : Except Status Unit → σ → List (Event φ) → Prop) : Prop where
  ok : ∀ {events a}, (∀ event ∈ events, p event) → Transcript x.run events (some (.ok a)) →
    steady a events
  failed : ∀ {events status t}, (∀ event ∈ events, p event) →
    Transcript x.run events (some (.error status)) → ended (.error status) t events
  cut : ∀ {events query u t}, (∀ event ∈ events, p event) → Waits query x.run events →
    host.answer query u = (none, t) → ended (.ok ()) t events

section Leads

variable {plan : Plan φ τ} {host : Host σ φ} {p : Event φ → Prop}
  {steady : List (Event φ) → String → Prop}
  {ended : Except Status Unit → σ → List (Event φ) → String → Prop}
  (upheld : host.Uphold p) (noted : ∀ note, p (.noted note))
  (tick : ∀ opened before cursor, steady before cursor →
    Exchange.Leads host p (plan.tick opened cursor)
      (fun next events => steady (before ++ events) next)
      fun result t events => ended result t (before ++ events) cursor)

include upheld noted tick

theorem Plan.check_leads {opened : τ} {s t : σ} {before after : List (Event φ)}
    {cursor next : String} {verdict : Polling.Verdict Status} (h : steady before cursor)
    (check : (plan.poller host.recorded opened).check ((s, before), cursor) =
      (verdict, (t, after), next)) :
    (verdict = .again → steady after next) ∧
      ∀ ending, verdict.ending? = some ending → ended (Plan.result ending) t after next := by
  obtain ⟨events, hrun, htranscript, hwaits, hp⟩ :=
    Dialogue.run_recorded host.toSurroundings (plan.tick opened cursor).run s before
  have htick := tick opened before cursor h
  rcases hplain : (plan.tick opened cursor).run.run host.toSurroundings s with ⟨outcome, u⟩
  rw [hplain] at hrun htranscript hwaits
  have hrecorded : (plan.tick opened cursor).run.run host.recorded.toSurroundings (s, before) =
      (outcome, u, before ++ events) := hrun
  simp only [Plan.poller, hrecorded] at check
  match outcome with
  | none =>
      cases check
      obtain ⟨query, v, hwait, hanswer⟩ := hwaits rfl
      refine ⟨nofun, fun ending hending => ?_⟩
      cases hending
      exact htick.cut (hp p upheld noted) hwait hanswer
  | some (.error status) =>
      cases check
      refine ⟨nofun, fun ending hending => ?_⟩
      cases hending
      exact htick.failed (hp p upheld noted) htranscript
  | some (.ok next) =>
      cases check
      exact ⟨fun _ => htick.ok (hp p upheld noted) htranscript, nofun⟩

variable (steady ended)

/-- What the opening of a stream leads to and every tick preserves holds as long as the stream goes
on; what the part that ends the stream leads to holds at its end. -/
theorem Plan.run_leads
    (opening : Exchange.Leads host p plan.opening (fun _ events => steady events plan.cursor)
      fun result t events => ended result t events plan.cursor)
    (stopped : ∀ t events cursor, steady events cursor → ended (.ok ()) t events cursor)
    {fuel : Nat} {s t : σ} {result : Option (Except Status Unit)} {events : List (Event φ)}
    {cursor : String} (run : plan.run host.recorded fuel (s, []) = (result, (t, events), cursor)) :
    (result = none → steady events cursor) ∧
      ∀ ending, result = some ending → ended ending t events cursor := by
  obtain ⟨first, hrun, htranscript, hwaits, hp⟩ :=
    Dialogue.run_recorded host.toSurroundings plan.opening.run s []
  rcases hopening : plan.opening.run.run host.toSurroundings s with ⟨outcome, u⟩
  rw [hopening] at hrun htranscript hwaits
  have hrecorded : plan.opening.run.run host.recorded.toSurroundings (s, []) =
      (outcome, u, first) := hrun
  rw [Plan.run, hrecorded] at run
  match outcome with
  | none =>
      cases run
      obtain ⟨query, v, hwait, hanswer⟩ := hwaits rfl
      refine ⟨nofun, fun ending hending => ?_⟩
      cases hending
      exact opening.cut (hp p upheld noted) hwait hanswer
  | some (.error status) =>
      cases run
      refine ⟨nofun, fun ending hending => ?_⟩
      cases hending
      exact opening.failed (hp p upheld noted) htranscript
  | some (.ok opened) =>
      have hrule : (plan.poller host.recorded opened).Rule
          (fun _ state => steady state.1.2 state.2) (fun _ state => steady state.1.2 state.2)
          (fun ending state => ended (Plan.result ending) state.1.1 state.1.2 state.2) :=
        { stopped := fun hsteady _ => stopped _ _ _ hsteady
          again := fun hsteady _ hcheck => (check_leads upheld noted tick hsteady hcheck).1 rfl
          ends := fun hsteady _ hcheck => (check_leads upheld noted tick hsteady hcheck).2 _
          passed := by
            rintro n ⟨⟨v, before⟩, cursor⟩ t hsteady hpause
            obtain rfl := congrArg Prod.snd hpause
            exact hsteady
          cut := by
            rintro n ⟨⟨v, before⟩, cursor⟩ t hsteady hpause
            obtain rfl := congrArg Prod.snd hpause
            exact stopped _ before cursor hsteady }
      rcases hloop : (plan.poller host.recorded opened).run fuel
        (host.recorded.start plan.maxAge (u, first), plan.cursor) with ⟨ending, v, last⟩
      dsimp only at run
      rw [hloop] at run
      cases run
      have hopened := opening.ok (hp p upheld noted) htranscript
      obtain ⟨hsteady, hended⟩ := hrule.run (n := 0) hopened hloop
      refine ⟨fun hnone => hsteady (Option.map_eq_none_iff.1 hnone), fun ending hending => ?_⟩
      obtain ⟨last, hlast, rfl⟩ := Option.map_eq_some_iff.1 hending
      exact hended last hlast

end Leads

/-- What holds when a stream has opened and is preserved by every tick that ends well holds as long
as the stream goes on; what holds after the part that ends a stream holds at its end. -/
theorem Plan.run_induction (plan : Plan φ τ) (host : Host σ φ) {p : Event φ → Prop}
    (upheld : host.Uphold p) (noted : ∀ note, p (.noted note))
    (steady ended : List (Event φ) → String → Prop)
    (mild : ∀ events cursor, steady events cursor → ended events cursor)
    (opening : ∀ events outcome, Transcript plan.opening.run events outcome →
      ended events plan.cursor ∧ ∀ opened, outcome = some (.ok opened) → steady events plan.cursor)
    (tick : ∀ opened before cursor events outcome, steady before cursor →
      Transcript (plan.tick opened cursor).run events outcome → (∀ event ∈ events, p event) →
      (∀ next, outcome = some (.ok next) → steady (before ++ events) next) ∧
        (Stops outcome → ended (before ++ events) cursor))
    (fuel : Nat) (s : σ) :
    ended (plan.run host.recorded fuel (s, [])).2.1.2 (plan.run host.recorded fuel (s, [])).2.2 ∧
      ((plan.run host.recorded fuel (s, [])).1 = none →
        steady (plan.run host.recorded fuel (s, [])).2.1.2
          (plan.run host.recorded fuel (s, [])).2.2) := by
  have htick : ∀ opened before cursor, steady before cursor →
      Exchange.Leads host p (plan.tick opened cursor)
        (fun next events => steady (before ++ events) next)
        fun _ _ events => ended (before ++ events) cursor := by
    intro opened before cursor h
    constructor
    · intro events next hp htranscript
      exact (tick opened before cursor events _ h htranscript hp).1 next rfl
    · intro events status t hp htranscript
      exact (tick opened before cursor events _ h htranscript hp).2 nofun
    · intro events query u t hp hwait _
      exact (tick opened before cursor events _ h hwait.transcript hp).2 nofun
  have hopening : Exchange.Leads host p plan.opening (fun _ events => steady events plan.cursor)
      fun _ _ events => ended events plan.cursor := by
    constructor
    · intro events opened _ htranscript
      exact (opening events _ htranscript).2 opened rfl
    · intro events status t _ htranscript
      exact (opening events _ htranscript).1
    · intro events query u t _ hwait _
      exact (opening events _ hwait.transcript).1
  rcases hrun : plan.run host.recorded fuel (s, []) with ⟨result, ⟨t, events⟩, cursor⟩
  obtain ⟨hsteady, hended⟩ := run_leads steady
    (fun _ _ events cursor => ended events cursor) upheld noted htick hopening
    (fun _ events cursor => mild events cursor) hrun
  refine ⟨?_, hsteady⟩
  cases result with
  | none => exact mild events cursor (hsteady rfl)
  | some result => exact hended result rfl

end Session

end ManifestRelay
