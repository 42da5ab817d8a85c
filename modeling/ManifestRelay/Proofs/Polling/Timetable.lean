import Mathlib.Order.MinMax
import Mathlib.Order.Monotone.Basic
import ManifestRelay.Polling.Timetable
import ManifestRelay.Proofs.Session.Run

/-!
# When a polling loop checks and when it ends

A loop checks at once, and again an interval after each check that was to be
repeated.  It ends with the first check that says so, at the instant at which
that check ends, or else at the stop.  What coincides with the stop is too late,
be it the start of a check or its end.
-/

namespace ManifestRelay.Polling

/-! ### Stops -/

namespace Stop

variable {stop : Stop} {now : Nat}

theorem hasCome_iff : stop.hasCome now = true ↔ ∃ instant, stop = some instant ∧ instant ≤ now := by
  cases stop <;> simp [hasCome]

theorem hasCome_mono {later : Nat} (hle : now ≤ later) (come : stop.hasCome now = true) :
    stop.hasCome later = true := by
  obtain ⟨instant, rfl, hinstant⟩ := hasCome_iff.1 come
  exact hasCome_iff.2 ⟨instant, rfl, hinstant.trans hle⟩

theorem not_hasCome_mono {earlier : Nat} (hle : earlier ≤ now) (ahead : stop.hasCome now = false) :
    stop.hasCome earlier = false := by
  rw [← Bool.not_eq_true] at ahead ⊢
  exact mt (hasCome_mono hle) ahead

theorem hasCome_first (a b : Stop) (now : Nat) :
    (first a b).hasCome now = (a.hasCome now || b.hasCome now) := by
  cases a <;> cases b <;> simp [first, hasCome, Option.merge]

end Stop

namespace Progress

variable {p : Progress} {stop : Stop} {duration : Nat}

theorem wait_passed (ahead : stop.hasCome (p.now + duration) = false) :
    p.wait stop duration = (true, { p with now := p.now + duration }) := by
  cases stop with
  | none => rfl
  | some instant =>
      have hlate : ¬ instant ≤ p.now + duration := by simpa [Stop.hasCome] using ahead
      rw [wait, if_neg hlate]

theorem wait_cut {instant : Nat} (come : instant ≤ p.now + duration) :
    p.wait (some instant) duration = (false, { p with now := max p.now instant }) := by
  rw [wait, if_pos come]

end Progress

/-! ### Timetables -/

/-- What is known of a loop beforehand. -/
structure Timetable (ε : Type) where
  start : Nat
  interval : Nat
  deadline : Stop
  cancellation : Stop
  checks : Nat → Check ε

namespace Timetable

variable {ε : Type} (t : Timetable ε)

def stop : Stop := t.deadline.first t.cancellation

def run (fuel : Nat) : Option (Ending ε) × Progress :=
  runTimed fuel t.start t.interval t.stop t.checks

/-- When a check starts, if all checks before it are to be repeated. -/
def startOf : Nat → Nat
  | 0 => t.start
  | i + 1 => startOf i + (t.checks i).duration + t.interval

/-- When a check ends, unless it is interrupted. -/
def endOf (i : Nat) : Nat := t.startOf i + (t.checks i).duration

def startsOf (count : Nat) : List Nat := ((List.range count).map t.startOf).reverse

/-- A check is started if all checks before it are to be repeated and the stop is still to come. -/
structure IsStarted (i : Nat) : Prop where
  again : ∀ j < i, (t.checks j).verdict = .again
  inTime : t.stop.hasCome (t.startOf i) = false

structure EndsWith (i : Nat) (ending : Ending ε) : Prop where
  started : t.IsStarted i
  inTime : t.stop.hasCome (t.endOf i) = false
  verdict : (t.checks i).verdict.ending? = some ending

structure IsKept : Prop where
  /-- A loop that has not ended after some checks has started them. -/
  underWay : ∀ fuel, (t.run fuel).1 = none →
    (t.run fuel).2.starts = t.startsOf fuel ∧ ∀ i < fuel, t.IsStarted i
  /-- A loop that has ended has started every check that is to be started, and no other. -/
  ended : ∀ fuel ending, (t.run fuel).1 = some ending →
    ∃ count, (t.run fuel).2.starts = t.startsOf count ∧ ∀ i, t.IsStarted i ↔ i < count
  inTime : ∀ fuel, ∀ instant ∈ (t.run fuel).2.starts,
    t.deadline.hasCome instant = false ∧ t.cancellation.hasCome instant = false
  /-- A check that ends the loop in time ends it when it is done. -/
  ends : ∀ i ending, t.EndsWith i ending → ∀ fuel, i < fuel →
    (t.run fuel).1 = some ending ∧ (t.run fuel).2.now = t.endOf i
  /-- If there is none, the loop ends at the stop, or at once if it starts after that. -/
  stops : (∀ i ending, ¬ t.EndsWith i ending) → ∀ instant, t.stop = some instant →
    ∀ fuel, instant - t.start < fuel →
      (t.run fuel).1 = some .stopped ∧ (t.run fuel).2.now = max t.start instant
  goesOn : (∀ i ending, ¬ t.EndsWith i ending) → t.stop = none → ∀ fuel, (t.run fuel).1 = none

theorem startOf_le_endOf (i : Nat) : t.startOf i ≤ t.endOf i := Nat.le_add_right _ _

theorem endOf_le_startOf_succ (i : Nat) : t.endOf i ≤ t.startOf (i + 1) := Nat.le_add_right _ _

theorem startOf_mono : Monotone t.startOf :=
  monotone_nat_of_le_succ fun i => (t.startOf_le_endOf i).trans (t.endOf_le_startOf_succ i)

theorem start_le_startOf (i : Nat) : t.start ≤ t.startOf i := t.startOf_mono (Nat.zero_le i)

theorem add_le_startOf (pauses : 0 < t.interval) (i : Nat) : t.start + i ≤ t.startOf i := by
  induction i with
  | zero => exact le_refl t.start
  | succ i ih =>
      have hstep : t.startOf i + t.interval ≤ t.startOf (i + 1) := by
        rw [startOf, Nat.add_right_comm]
        exact Nat.le_add_right _ _
      omega

theorem length_startsOf (count : Nat) : (t.startsOf count).length = count := by
  rw [startsOf, List.length_reverse, List.length_map, List.length_range]

theorem startsOf_succ (count : Nat) :
    t.startsOf (count + 1) = t.startOf count :: t.startsOf count := by
  rw [startsOf, List.range_succ, List.map_append, List.reverse_append]
  rfl

variable {t}

theorem IsStarted.of_le {i j : Nat} (started : t.IsStarted j) (hle : i ≤ j) : t.IsStarted i where
  again k hk := started.again k (hk.trans_le hle)
  inTime := Stop.not_hasCome_mono (t.startOf_mono hle) started.inTime

theorem EndsWith.le {i j : Nat} {ending : Ending ε} (ends : t.EndsWith i ending)
    (started : t.IsStarted j) : j ≤ i := by
  by_contra hless
  have hverdict := ends.verdict
  rw [started.again i (Nat.lt_of_not_le hless)] at hverdict
  cases hverdict

theorem EndsWith.unique {i j : Nat} {first second : Ending ε} (hfirst : t.EndsWith i first)
    (hsecond : t.EndsWith j second) : i = j ∧ first = second := by
  obtain rfl := le_antisymm (hsecond.le hfirst.started) (hfirst.le hsecond.started)
  exact ⟨rfl, Option.some.inj (hfirst.verdict.symm.trans hsecond.verdict)⟩

theorem isStarted_iff_lt {count : Nat} (before : ∀ i < count, t.IsStarted i)
    (last : ¬ t.IsStarted count) (i : Nat) : t.IsStarted i ↔ i < count :=
  ⟨fun started => Nat.lt_of_not_le fun hle => last (started.of_le hle), before i⟩

/-! ### Runs -/

variable (t) in
def poller : Poller Progress ε := timedPoller t.interval t.stop t.checks

variable (t) in
def after (count now : Nat) : Progress := ⟨now, t.startsOf count⟩

theorem check_inTime {n : Nat} (ahead : t.stop.hasCome (t.endOf n) = false) :
    t.poller.check (t.after n (t.startOf n)) =
      ((t.checks n).verdict, t.after (n + 1) (t.endOf n)) := by
  have hwait : Progress.wait ⟨t.startOf n, t.startsOf (n + 1)⟩ t.stop (t.checks n).duration =
      (true, t.after (n + 1) (t.endOf n)) := Progress.wait_passed ahead
  unfold poller timedPoller after
  dsimp only
  rw [length_startsOf, ← startsOf_succ, hwait]
  rfl

theorem check_cut {n instant : Nat} (stops : t.stop = some instant) (come : instant ≤ t.endOf n) :
    t.poller.check (t.after n (t.startOf n)) =
      (.interrupted, t.after (n + 1) (max (t.startOf n) instant)) := by
  have hwait : Progress.wait ⟨t.startOf n, t.startsOf (n + 1)⟩ t.stop (t.checks n).duration =
      (false, t.after (n + 1) (max (t.startOf n) instant)) := by
    rw [stops]
    exact Progress.wait_cut come
  unfold poller timedPoller after
  dsimp only
  rw [length_startsOf, ← startsOf_succ, hwait]
  rfl

theorem pause_passed {n : Nat} (ahead : t.stop.hasCome (t.startOf (n + 1)) = false) :
    t.poller.pause (t.after (n + 1) (t.endOf n)) = (true, t.after (n + 1) (t.startOf (n + 1))) :=
  Progress.wait_passed ahead

theorem pause_cut {n instant : Nat} (stops : t.stop = some instant)
    (come : instant ≤ t.startOf (n + 1)) :
    t.poller.pause (t.after (n + 1) (t.endOf n)) =
      (false, t.after (n + 1) (max (t.endOf n) instant)) := by
  change Progress.wait _ t.stop _ = _
  rw [stops]
  exact Progress.wait_cut come

variable (t) in
def Steady (n : Nat) (p : Progress) : Prop :=
  p = t.after n (t.startOf n) ∧ (∀ j < n, (t.checks j).verdict = .again) ∧
    (0 < n → t.stop.hasCome (t.startOf n) = false)

variable (t) in
def Checked (n : Nat) (p : Progress) : Prop :=
  p = t.after (n + 1) (t.endOf n) ∧ t.IsStarted n ∧ (t.checks n).verdict = .again ∧
    t.stop.hasCome (t.endOf n) = false

variable (t) in
def Ended (ending : Ending ε) (p : Progress) : Prop :=
  ∃ count, p.starts = t.startsOf count ∧ (∀ i, t.IsStarted i ↔ i < count) ∧
    ((∃ i, t.EndsWith i ending ∧ p.now = t.endOf i) ∨
      (ending = .stopped ∧ (∀ i other, ¬ t.EndsWith i other) ∧
        ∃ instant, t.stop = some instant ∧ p.now = max t.start instant))

theorem Steady.isStarted {n : Nat} {p : Progress} (steady : t.Steady n p)
    (ahead : t.poller.isStopped p = false) : t.IsStarted n := by
  obtain ⟨rfl, hagain, -⟩ := steady
  exact ⟨hagain, ahead⟩

theorem not_endsWith_of_again {i : Nat} (again : (t.checks i).verdict = .again)
    (ending : Ending ε) : ¬ t.EndsWith i ending := by
  intro ends
  have hverdict := ends.verdict
  rw [again] at hverdict
  cases hverdict

theorem ended_with {n : Nat} {ending : Ending ε} (ends : t.EndsWith n ending) :
    t.Ended ending (t.after (n + 1) (t.endOf n)) := by
  refine ⟨n + 1, rfl, fun i => ⟨fun started => Nat.lt_succ_of_le (ends.le started), fun hlt => ?_⟩,
    .inl ⟨n, ends, rfl⟩⟩
  exact ends.started.of_le (Nat.le_of_lt_succ hlt)

/-- A loop whose last check has not ended it is stopped while that check or the pause behind it
is under way. -/
theorem ended_stopped {n now instant : Nat} (started : t.IsStarted n)
    (unended : ∀ ending, ¬ t.EndsWith n ending) (stops : t.stop = some instant)
    (come : instant ≤ t.startOf (n + 1)) (late : t.start ≤ now)
    (ahead : t.stop.hasCome now = false) :
    t.Ended .stopped (t.after (n + 1) (max now instant)) := by
  have hlast : ¬ t.IsStarted (n + 1) := fun h => by
    have hahead := h.inTime
    rw [Stop.hasCome_iff.2 ⟨instant, stops, come⟩] at hahead
    cases hahead
  have hcount := isStarted_iff_lt (fun i hlt => started.of_le (Nat.le_of_lt_succ hlt)) hlast
  refine ⟨n + 1, rfl, hcount, .inr ⟨rfl, fun i ending ends => ?_, instant, stops, ?_⟩⟩
  · rcases (ends.le started).eq_or_lt with rfl | hlt
    · exact unended ending ends
    · exact hlast (ends.started.of_le hlt)
  · have hless : ¬ instant ≤ now := by simpa [stops, Stop.hasCome] using ahead
    exact (max_eq_right (Nat.le_of_not_le hless)).trans
      (max_eq_right (late.trans (Nat.le_of_not_le hless))).symm

theorem ended_at_once {instant : Nat} (stops : t.stop = some instant) (come : instant ≤ t.start) :
    t.Ended .stopped (t.after 0 t.start) := by
  have hnone : ∀ i, ¬ t.IsStarted i := fun i started => by
    have hahead := Stop.not_hasCome_mono (t.start_le_startOf i) started.inTime
    rw [Stop.hasCome_iff.2 ⟨instant, stops, come⟩] at hahead
    cases hahead
  exact ⟨0, rfl, fun i => iff_of_false (hnone i) (Nat.not_lt_zero i),
    .inr ⟨rfl, fun i _ ends => hnone i ends.started, instant, stops, (max_eq_left come).symm⟩⟩

theorem rule (t : Timetable ε) : t.poller.Rule t.Steady t.Checked t.Ended where
  stopped := by
    rintro n p ⟨rfl, -, hahead⟩ hstopped
    cases n with
    | succ n =>
        exact absurd ((hahead (Nat.succ_pos n)).symm.trans hstopped) Bool.false_ne_true
    | zero =>
        obtain ⟨instant, hstop, hinstant⟩ := Stop.hasCome_iff.1 hstopped
        exact ended_at_once hstop hinstant
  again := by
    intro n p u steady hstopped hcheck
    have hstarted := steady.isStarted hstopped
    obtain ⟨rfl, -, -⟩ := steady
    cases hcome : t.stop.hasCome (t.endOf n) with
    | false =>
        rw [check_inTime hcome] at hcheck
        obtain ⟨hverdict, rfl⟩ := Prod.mk.inj hcheck
        exact ⟨rfl, hstarted, hverdict, hcome⟩
    | true =>
        obtain ⟨instant, hstop, hinstant⟩ := Stop.hasCome_iff.1 hcome
        rw [check_cut hstop hinstant] at hcheck
        cases hcheck
  ends := by
    intro n p u verdict ending steady hstopped hcheck hending
    have hstarted := steady.isStarted hstopped
    obtain ⟨rfl, -, -⟩ := steady
    cases hcome : t.stop.hasCome (t.endOf n) with
    | false =>
        rw [check_inTime hcome] at hcheck
        obtain ⟨rfl, rfl⟩ := Prod.mk.inj hcheck
        exact ended_with ⟨hstarted, hcome, hending⟩
    | true =>
        obtain ⟨instant, hstop, hinstant⟩ := Stop.hasCome_iff.1 hcome
        rw [check_cut hstop hinstant] at hcheck
        obtain ⟨rfl, rfl⟩ := Prod.mk.inj hcheck
        obtain rfl := Option.some.inj hending
        refine ended_stopped hstarted (fun ending ends => ?_) hstop
          (hinstant.trans (t.endOf_le_startOf_succ n)) (t.start_le_startOf n) hstopped
        rw [ends.inTime] at hcome
        cases hcome
  passed := by
    rintro n p u ⟨rfl, hstarted, hverdict, hahead⟩ hpause
    cases hcome : t.stop.hasCome (t.startOf (n + 1)) with
    | false =>
        rw [pause_passed hcome] at hpause
        obtain ⟨-, rfl⟩ := Prod.mk.inj hpause
        refine ⟨rfl, fun j hj => ?_, fun _ => hcome⟩
        rcases (Nat.le_of_lt_succ hj).eq_or_lt with rfl | hlt
        · exact hverdict
        · exact hstarted.again j hlt
    | true =>
        obtain ⟨instant, hstop, hinstant⟩ := Stop.hasCome_iff.1 hcome
        rw [pause_cut hstop hinstant] at hpause
        cases hpause
  cut := by
    rintro n p u ⟨rfl, hstarted, hverdict, hahead⟩ hpause
    cases hcome : t.stop.hasCome (t.startOf (n + 1)) with
    | false =>
        rw [pause_passed hcome] at hpause
        cases hpause
    | true =>
        obtain ⟨instant, hstop, hinstant⟩ := Stop.hasCome_iff.1 hcome
        rw [pause_cut hstop hinstant] at hpause
        obtain ⟨-, rfl⟩ := Prod.mk.inj hpause
        exact ended_stopped hstarted (not_endsWith_of_again hverdict) hstop hinstant
          ((t.start_le_startOf n).trans (t.startOf_le_endOf n)) hahead

/-- What holds of a loop of which so much has been run. -/
theorem run_spec (t : Timetable ε) (fuel : Nat) :
    ((t.run fuel).1 = none → t.Steady fuel (t.run fuel).2) ∧
      ∀ ending, (t.run fuel).1 = some ending → t.Ended ending (t.run fuel).2 := by
  have hopen : t.Steady 0 ⟨t.start, []⟩ := ⟨rfl, nofun, fun h => absurd h (lt_irrefl 0)⟩
  have hrun : ((t.run fuel).1 = none → t.Steady (0 + fuel) (t.run fuel).2) ∧
      ∀ ending, (t.run fuel).1 = some ending → t.Ended ending (t.run fuel).2 :=
    t.rule.run hopen rfl
  rwa [Nat.zero_add] at hrun

theorem mem_startsOf {count instant : Nat} (h : instant ∈ t.startsOf count) :
    ∃ i < count, t.startOf i = instant := by
  rw [startsOf, List.mem_reverse, List.mem_map] at h
  obtain ⟨i, hi, hstart⟩ := h
  exact ⟨i, List.mem_range.1 hi, hstart⟩

theorem Steady.before {n i : Nat} {p : Progress} (steady : t.Steady n p) (hlt : i < n) :
    t.IsStarted i where
  again j hj := steady.2.1 j (hj.trans hlt)
  inTime := Stop.not_hasCome_mono (t.startOf_mono hlt.le) (steady.2.2 (Nat.zero_lt_of_lt hlt))

/-- Whatever has been run of a loop, it has started the first checks, all of them in time. -/
theorem run_starts (t : Timetable ε) (fuel : Nat) :
    ∃ count, (t.run fuel).2.starts = t.startsOf count ∧ ∀ i < count, t.IsStarted i := by
  obtain ⟨hsteady, hended⟩ := t.run_spec fuel
  cases hresult : (t.run fuel).1 with
  | none =>
      have hnow := hsteady hresult
      exact ⟨fuel, by rw [hnow.1]; rfl, fun i hlt => hnow.before hlt⟩
  | some ending =>
      obtain ⟨count, hstarts, hcount, -⟩ := hended ending hresult
      exact ⟨count, hstarts, fun i hlt => (hcount i).2 hlt⟩

/-- A loop that pauses keeps its timetable: it checks at the set instants until a check ends it or
the stop comes. -/
theorem isKept_of_pauses (t : Timetable ε) (pauses : 0 < t.interval) : t.IsKept where
  underWay fuel hresult := by
    have hsteady := (t.run_spec fuel).1 hresult
    exact ⟨by rw [hsteady.1]; rfl, fun i hlt => hsteady.before hlt⟩
  ended fuel ending hresult := by
    obtain ⟨count, hstarts, hcount, -⟩ := (t.run_spec fuel).2 ending hresult
    exact ⟨count, hstarts, hcount⟩
  inTime fuel instant hinstant := by
    obtain ⟨count, hstarts, hbefore⟩ := t.run_starts fuel
    rw [hstarts] at hinstant
    obtain ⟨i, hlt, rfl⟩ := mem_startsOf hinstant
    have hahead := (hbefore i hlt).inTime
    rwa [stop, Stop.hasCome_first, Bool.or_eq_false_iff] at hahead
  ends i ending hends fuel hlt := by
    obtain ⟨hsteady, hended⟩ := t.run_spec fuel
    cases hresult : (t.run fuel).1 with
    | none => exact absurd hends (not_endsWith_of_again ((hsteady hresult).2.1 i hlt) ending)
    | some other =>
        obtain ⟨count, -, -, ⟨j, hother, hnow⟩ | ⟨-, hnone, -⟩⟩ := hended other hresult
        · obtain ⟨rfl, rfl⟩ := hends.unique hother
          exact ⟨rfl, hnow⟩
        · exact absurd hends (hnone i ending)
  stops hnone instant hstop fuel hfuel := by
    obtain ⟨hsteady, hended⟩ := t.run_spec fuel
    cases hresult : (t.run fuel).1 with
    | none =>
        have hahead := (hsteady hresult).2.2 (Nat.zero_lt_of_lt hfuel)
        -- Every check starts later than the one before, so the stop has come by this one.
        have hlate : instant ≤ t.startOf fuel := by
          have hstart := t.add_le_startOf pauses fuel
          omega
        rw [Stop.hasCome_iff.2 ⟨instant, hstop, hlate⟩] at hahead
        cases hahead
    | some ending =>
        obtain ⟨count, -, -, ⟨i, hends, -⟩ | ⟨rfl, -, other, hother, hnow⟩⟩ := hended ending hresult
        · exact absurd hends (hnone i ending)
        · obtain rfl := Option.some.inj (hstop.symm.trans hother)
          exact ⟨rfl, hnow⟩
  goesOn hnone hstop fuel := by
    cases hresult : (t.run fuel).1 with
    | none => rfl
    | some ending =>
        obtain ⟨count, -, -, ⟨i, hends, -⟩ | ⟨-, -, instant, hother, -⟩⟩ :=
          (t.run_spec fuel).2 ending hresult
        · exact absurd hends (hnone i ending)
        · rw [hstop] at hother
          cases hother

/-- The second check would be done at the very instant of the deadline. -/
def tied : Timetable String where
  start := 1
  interval := 3
  deadline := some 10
  cancellation := some 20
  checks i := if i = 0 then ⟨2, .again⟩ else ⟨4, .done⟩

/-- The deadline comes first. -/
theorem isKept_of_pauses_tied :
    0 < tied.interval ∧ tied.endOf 1 = 10 ∧ (tied.run 10).1 = some .stopped ∧
      (tied.run 10).2.now = 10 := by
  have hnone : ∀ i ending, ¬ tied.EndsWith i ending := by
    intro i ending ends
    match i, ends with
    | 0, ends => cases ends.verdict
    | 1, ends => cases ends.inTime
    | i + 2, ends => cases ends.started.again 1 (Nat.lt_add_left i Nat.one_lt_two)
  have hstops := (isKept_of_pauses tied (by decide)).stops hnone 10 rfl 10 (by decide)
  exact ⟨by decide, rfl, hstops⟩

end Timetable

end ManifestRelay.Polling
