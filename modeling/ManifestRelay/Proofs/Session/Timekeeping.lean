import ManifestRelay.Polling.Timetable
import ManifestRelay.Proofs.Polling.Jitter
import ManifestRelay.Proofs.Session.Run

/-!
# Streams that end on time

A host keeps time if whatever waits there is cut short at the very instant of the
stop, and nothing that comes about in time is lost.  On such a host a stream that
polls ends at the instant of the stop, and ends well, unless it has ended before.
-/

namespace ManifestRelay

open Polling
open ManifestRelay.Stream

/-! ### Ages -/

/-- How long a connection may last: as long as is configured, or shifted at random. -/
def Polling.IsAge (configured age : Nat) : Prop :=
  age = configured ∨ ∃ draw, jittered configured ageJitterPercent draw = some age

theorem Polling.IsAge.le {configured age : Nat} (h : IsAge configured age) :
    100 * age ≤ 105 * configured := by
  rcases h with rfl | ⟨draw, hdraw⟩
  · omega
  obtain ⟨range, hrange⟩ := exists_range_of_jittered hdraw
  obtain ⟨-, hpercent⟩ := jitterRange_eq_some_iff.1 hrange
  rw [ageJitterPercent] at hpercent
  rcases Nat.eq_zero_or_pos range with hstays | hshifts
  · rw [jittered_of_range_zero draw hrange hstays] at hdraw
    obtain rfl := Option.some.inj hdraw
    omega
  · obtain ⟨-, -, -, rfl⟩ := (jittered_eq_some_iff draw hrange hshifts).1 hdraw
    have hshift : draw % (2 * range) < 2 * range := Nat.mod_lt draw (by omega)
    omega

namespace Session

/-- What can be read off a host's clock. -/
structure Reading where
  now : Nat
  cancelledAt : Option Nat
  /-- The instant at which the connection's age is reached, once that is counted. -/
  deadline : Option Nat
deriving DecidableEq

namespace Reading

/-- The instant of the stop as far as it is known. -/
def stop (r : Reading) : Stop := Stop.first r.cancelledAt r.deadline

/-- The connection's age is counted, and no stop has come. -/
def IsRunning (r : Reading) : Prop := r.deadline.isSome ∧ r.stop.hasCome r.now = false

def IsAfter (later earlier : Reading) : Prop :=
  later.deadline = earlier.deadline ∧ earlier.now ≤ later.now

theorem IsAfter.refl (r : Reading) : r.IsAfter r := ⟨rfl, Nat.le_refl _⟩

theorem IsAfter.trans {a b c : Reading} (h : c.IsAfter b) (h' : b.IsAfter a) : c.IsAfter a :=
  ⟨h.1.trans h'.1, Nat.le_trans h'.2 h.2⟩

end Reading

variable {σ φ τ α : Type}

/-- Time as a stream finds it on a host while it has not been stopped. -/
structure Host.KeepsTime (host : Host σ φ) (clock : σ → Reading) : Prop where
  record : ∀ note s, clock (host.record note s) = clock s
  start : ∀ configured s, ∃ age, IsAge configured age ∧
    clock (host.start configured s) =
      ⟨(clock s).now, (clock s).cancelledAt, some ((clock s).now + age)⟩
  isStopped : ∀ s, (clock s).deadline.isSome →
    host.isStopped s = (clock s).stop.hasCome (clock s).now
  answered : ∀ {query s answer t}, (clock s).IsRunning → host.answer query s = (some answer, t) →
    (clock t).IsRunning ∧ (clock t).IsAfter (clock s)
  /-- What waits for an answer is cut short at the instant of the stop. -/
  unanswered : ∀ {query s t}, (clock s).IsRunning → host.answer query s = (none, t) →
    (clock t).stop = some (clock t).now ∧ (clock t).IsAfter (clock s)
  passed : ∀ {duration s t}, (clock s).IsRunning → host.pause duration s = (true, t) →
    (clock t).IsRunning ∧ (clock t).deadline = (clock s).deadline ∧
      (clock s).now + duration ≤ (clock t).now
  cut : ∀ {duration s t}, (clock s).IsRunning → host.pause duration s = (false, t) →
    (clock t).stop = some (clock t).now ∧ (clock t).IsAfter (clock s)

section Dialogues

variable {host : Host σ φ} {clock : σ → Reading} (keeps : host.KeepsTime clock)

include keeps

/-- A dialogue is over before the stop, or cut short by it. -/
theorem Host.KeepsTime.run {d : Dialogue φ α} {s t : σ} {outcome : Option α}
    (running : (clock s).IsRunning) (run : d.run host.toSurroundings s = (outcome, t)) :
    (clock t).IsAfter (clock s) ∧ (outcome.isSome → (clock t).IsRunning) ∧
      (outcome = none → (clock t).stop = some (clock t).now) := by
  induction d generalizing s with
  | done a =>
      cases run
      exact ⟨.refl _, fun _ => running, fun h => absurd h (Option.some_ne_none a)⟩
  | note note next ih =>
      have hrecord := keeps.record note s
      have hnext := ih (hrecord ▸ running) run
      rwa [hrecord] at hnext
  | ask query next ih =>
      rw [Dialogue.run] at run
      rcases hanswer : host.answer query s with ⟨_ | answer, u⟩
      · rw [hanswer] at run
        cases run
        obtain ⟨hstop, hafter⟩ := keeps.unanswered running hanswer
        exact ⟨hafter, fun h => absurd h Bool.false_ne_true, fun _ => hstop⟩
      · rw [hanswer] at run
        obtain ⟨hrunning, hafter⟩ := keeps.answered running hanswer
        obtain ⟨hlater, hrest⟩ := ih answer hrunning run
        exact ⟨hlater.trans hafter, hrest⟩

theorem Host.KeepsTime.check {plan : Plan φ τ} {opened : τ} {s t : σ} {cursor next : String}
    {verdict : Verdict Status} (running : (clock s).IsRunning)
    (check : (plan.poller host opened).check (s, cursor) = (verdict, t, next)) :
    (clock t).IsAfter (clock s) ∧
      ((verdict = .interrupted ∧ (clock t).stop = some (clock t).now) ∨
        (verdict = .again ∨ ∃ status, verdict = .failed status) ∧ (clock t).IsRunning) := by
  unfold Plan.poller at check
  dsimp only at check
  rcases htick : (plan.tick opened cursor).run.run host.toSurroundings s with ⟨outcome, u⟩
  obtain ⟨hafter, hover, hcut⟩ := keeps.run running htick
  rw [htick] at check
  match outcome with
  | none =>
      cases check
      exact ⟨hafter, .inl ⟨rfl, hcut rfl⟩⟩
  | some (.error status) =>
      cases check
      exact ⟨hafter, .inr ⟨.inr ⟨status, rfl⟩, hover rfl⟩⟩
  | some (.ok next) =>
      cases check
      exact ⟨hafter, .inr ⟨.inl rfl, hover rfl⟩⟩

end Dialogues

/-! ### Runs -/

/-- How a run ends whose connection was opened at one reading of the clock and ended at another. -/
structure EndsOnTime (configured interval fuel : Nat) (opened : Reading)
    (result : Option (Except Status Unit)) (ended : Reading) : Prop where
  /-- The connection is given an age, and the run goes on no longer than that. -/
  age : ∃ age, 100 * age ≤ 105 * configured ∧ ended.deadline = some (opened.now + age) ∧
    (fuel ≠ 0 → age ≤ fuel * interval → result.isSome)
  early : fuel ≠ 0 → result ≠ some (.ok ()) → ended.IsRunning
  /-- A run that has ended well was stopped, and no time passed since the stop. -/
  stopped : result = some (.ok ()) →
    ∃ instant, ended.stop = some instant ∧ ended.now = max opened.now instant

structure Reading.IsDated (opened : Reading) (age interval pauses : Nat) (r : Reading) : Prop where
  deadline : r.deadline = some (opened.now + age)
  waited : opened.now + pauses * interval ≤ r.now

theorem Reading.IsDated.after {opened r later : Reading} {age interval pauses : Nat}
    (dated : opened.IsDated age interval pauses r) (after : later.IsAfter r) :
    opened.IsDated age interval pauses later :=
  ⟨after.1.trans dated.deadline, Nat.le_trans dated.waited after.2⟩

theorem Reading.IsRunning.lt_deadline {r : Reading} {deadline : Nat} (running : r.IsRunning)
    (h : r.deadline = some deadline) : r.now < deadline := by
  have hcome := running.2
  rw [stop, h] at hcome
  cases hcancelled : r.cancelledAt with
  | none =>
      rw [hcancelled] at hcome
      exact Nat.not_le.1 (of_decide_eq_false hcome)
  | some instant =>
      rw [hcancelled] at hcome
      have hless : r.now < min instant deadline := Nat.not_le.1 (of_decide_eq_false hcome)
      exact Nat.lt_of_lt_of_le hless (Nat.min_le_right _ _)

def Reading.EndsBy (opened : Reading) (age : Nat) (ending : Ending Status) (r : Reading) : Prop :=
  r.deadline = some (opened.now + age) ∧
    (((∃ status, ending = .failed status) ∧ r.IsRunning) ∨
      (ending = .stopped ∧ ∃ instant, r.stop = some instant ∧ r.now = max opened.now instant))

theorem Reading.IsDated.endsBy_stopped {opened r : Reading} {age interval pauses : Nat}
    (dated : opened.IsDated age interval pauses r) (h : r.stop = some r.now) :
    opened.EndsBy age .stopped r := by
  have hlater : opened.now ≤ r.now := Nat.le_trans (Nat.le_add_right _ _) dated.waited
  exact ⟨dated.deadline, .inr ⟨rfl, r.now, h, (Nat.max_eq_right hlater).symm⟩⟩

theorem Plan.pause_eq {host : Host σ φ} {plan : Plan φ τ} {opened : τ} {s t : σ}
    {cursor next : String} {passed : Bool}
    (h : (plan.poller host opened).pause (s, cursor) = (passed, t, next)) :
    host.pause plan.interval s = (passed, t) := by
  cases h
  rfl

section Runs

variable {host : Host σ φ} {clock : σ → Reading} (keeps : host.KeepsTime clock) {plan : Plan φ τ}

include keeps

theorem Plan.poller_rule (opened : τ) (first : Reading) (age : Nat) :
    (plan.poller host opened).Rule
      (fun n state => first.IsDated age plan.interval n (clock state.1) ∧
        ((n = 0 ∧ (clock state.1).now = first.now) ∨ (clock state.1).IsRunning))
      (fun n state => first.IsDated age plan.interval n (clock state.1) ∧ (clock state.1).IsRunning)
      (fun ending state => first.EndsBy age ending (clock state.1)) := by
  have hrunning : ∀ {state : σ × String}, (clock state.1).deadline = some (first.now + age) →
      (plan.poller host opened).isStopped state = false → (clock state.1).IsRunning := by
    intro state hdeadline hstopped
    have hsome : (clock state.1).deadline.isSome = true := by rw [hdeadline]; rfl
    exact ⟨hsome, (keeps.isStopped state.1 hsome).symm.trans hstopped⟩
  constructor
  case stopped =>
    rintro n ⟨u, cursor⟩ ⟨hdated, hplace⟩ hstopped
    have hsome : (clock u).deadline.isSome = true := by rw [hdated.deadline]; rfl
    have hcome : (clock u).stop.hasCome (clock u).now = true :=
      (keeps.isStopped u hsome).symm.trans hstopped
    rcases hplace with ⟨-, hnow⟩ | hrunning
    · obtain ⟨instant, hstop, hle⟩ := (Option.any_eq_true _ _).1 hcome
      refine ⟨hdated.deadline, .inr ⟨rfl, instant, hstop, ?_⟩⟩
      rw [hnow, Nat.max_eq_left]
      exact hnow ▸ of_decide_eq_true hle
    · rw [hrunning.2] at hcome
      cases hcome
  case again =>
    rintro n ⟨u, cursor⟩ ⟨v, next⟩ ⟨hdated, -⟩ hstopped hcheck
    obtain ⟨hafter, ⟨⟨⟩, -⟩ | ⟨-, hover⟩⟩ := keeps.check (hrunning hdated.deadline hstopped) hcheck
    exact ⟨hdated.after hafter, hover⟩
  case ends =>
    rintro n ⟨u, cursor⟩ ⟨v, next⟩ verdict ending ⟨hdated, -⟩ hstopped hcheck hending
    obtain ⟨hafter, ⟨rfl, hstop⟩ | ⟨rfl | ⟨status, rfl⟩, hover⟩⟩ :=
      keeps.check (hrunning hdated.deadline hstopped) hcheck
    · cases hending
      exact (hdated.after hafter).endsBy_stopped hstop
    · cases hending
    · cases hending
      exact ⟨(hdated.after hafter).deadline, .inl ⟨⟨status, rfl⟩, hover⟩⟩
  case passed =>
    rintro n ⟨u, cursor⟩ ⟨v, next⟩ ⟨hdated, hrunning⟩ hpause
    obtain ⟨hover, hdeadline, hnow⟩ := keeps.passed hrunning (pause_eq hpause)
    refine ⟨⟨hdeadline.trans hdated.deadline, ?_⟩, .inr hover⟩
    rw [Nat.succ_mul, ← Nat.add_assoc]
    exact Nat.le_trans (Nat.add_le_add_right hdated.waited _) hnow
  case cut =>
    rintro n ⟨u, cursor⟩ ⟨v, next⟩ ⟨hdated, hrunning⟩ hpause
    obtain ⟨hstop, hafter⟩ := keeps.cut hrunning (pause_eq hpause)
    exact (hdated.after hafter).endsBy_stopped hstop

theorem Plan.poller_endsOnTime {opened : τ} {fuel : Nat} {s t : σ} {cursor : String}
    {ending : Option (Ending Status)}
    (run : (plan.poller host opened).run fuel (host.start plan.maxAge s, plan.cursor) =
      (ending, t, cursor)) :
    EndsOnTime plan.maxAge plan.interval fuel (clock s) (ending.map Plan.result) (clock t) := by
  obtain ⟨age, hage, hstart⟩ := keeps.start plan.maxAge s
  have hfirst : (clock s).IsDated age plan.interval 0 (clock (host.start plan.maxAge s)) ∧
      ((0 = 0 ∧ (clock (host.start plan.maxAge s)).now = (clock s).now) ∨
        (clock (host.start plan.maxAge s)).IsRunning) := by
    rw [hstart]
    refine ⟨⟨rfl, ?_⟩, .inl ⟨rfl, rfl⟩⟩
    exact Nat.le_of_eq (by rw [Nat.zero_mul, Nat.add_zero])
  obtain ⟨hnone, hsome⟩ := (poller_rule keeps opened (clock s) age).run hfirst run
  rw [Nat.zero_add] at hnone
  cases ending with
  | none =>
      obtain ⟨hdated, hplace⟩ := hnone rfl
      have hrunning : fuel ≠ 0 → (clock t).IsRunning := fun hfuel =>
        hplace.resolve_left fun hzero => hfuel hzero.1
      refine ⟨⟨age, hage.le, hdated.deadline, fun hfuel henough => ?_⟩,
        fun hfuel _ => hrunning hfuel, nofun⟩
      have hless := (hrunning hfuel).lt_deadline hdated.deadline
      have hwaited := hdated.waited
      dsimp only at hwaited
      omega
  | some ending =>
      obtain ⟨hdeadline, ⟨⟨status, rfl⟩, hrunning⟩ | ⟨rfl, hstop⟩⟩ := hsome ending rfl
      · exact ⟨⟨age, hage.le, hdeadline, fun _ _ => rfl⟩, fun _ _ => hrunning, nofun⟩
      · exact ⟨⟨age, hage.le, hdeadline, fun _ _ => rfl⟩, fun _ hfailed => absurd rfl hfailed,
          fun _ => hstop⟩

/-- A run that has been opened ends at the stop, unless it has failed before. -/
theorem Plan.run_endsOnTime {opened : τ} {fuel : Nat} {s u t : σ} {cursor : String}
    {result : Option (Except Status Unit)}
    (opening : plan.opening.run.run host.toSurroundings s = (some (.ok opened), u))
    (run : plan.run host fuel s = (result, t, cursor)) :
    EndsOnTime plan.maxAge plan.interval fuel (clock u) result (clock t) := by
  rw [Plan.run, opening] at run
  rcases hloop : (plan.poller host opened).run fuel (host.start plan.maxAge u, plan.cursor) with
    ⟨ending, v, last⟩
  dsimp only at run
  rw [hloop] at run
  cases run
  exact poller_endsOnTime keeps hloop

end Runs

end Session

end ManifestRelay
