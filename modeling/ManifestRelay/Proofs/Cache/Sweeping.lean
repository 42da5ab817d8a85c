import ManifestRelay.Proofs.Cache.Ledger
import ManifestRelay.Rehearsal.CacheTrial

/-!
# What sweeps take away, and when

A sweep takes the expired entries that no call takes part in, and nothing else.  A sweeper sweeps
every period, counted from the instant at which it starts.  So an entry that calls have left alone,
whether it has an answer or was left without one, is gone a period after the latest of three
instants: the start of the sweeper, its own expiry, and the last one at which a call took part in it.
-/

namespace ManifestRelay.Cache

/-- When a sweeper that starts at an instant sweeps; its first sweep has number zero. -/
def Lifetimes.sweepAt (l : Lifetimes) (start turn : Nat) : Nat := start + (turn + 1) * l.sweepPeriod

namespace Lifetimes

theorem sweepPeriod_pos {l : Lifetimes} (enabled : l.isEnabled = true) : 0 < l.sweepPeriod := by
  have hsuccess : l.success ≠ 0 := by simpa [isEnabled] using enabled
  rw [sweepPeriod]
  split <;> omega

/-- After any instant since its start, a sweeper sweeps within a period. -/
theorem exists_sweepAt {l : Lifetimes} (enabled : l.isEnabled = true) {start instant : Nat}
    (since : start ≤ instant) : ∃ turn, instant < l.sweepAt start turn ∧
      l.sweepAt start turn ≤ instant + l.sweepPeriod := by
  have hperiod := sweepPeriod_pos enabled
  have hbelow := Nat.div_mul_le_self (instant - start) l.sweepPeriod
  have habove : instant - start < (instant - start) / l.sweepPeriod * l.sweepPeriod + l.sweepPeriod :=
    Nat.lt_div_mul_add hperiod
  refine ⟨(instant - start) / l.sweepPeriod, ?_, ?_⟩
  · rw [sweepAt, Nat.succ_mul]
    omega
  · rw [sweepAt, Nat.succ_mul]
    omega

theorem mem_sweepTimes_iff {l : Lifetimes} (enabled : l.isEnabled = true) (stopAt instant : Nat) :
    instant ∈ Rehearsal.CacheTrial.Crowd.sweepTimes l stopAt ↔
      instant < stopAt ∧ ∃ turn, instant = l.sweepAt 0 turn := by
  have hperiod := sweepPeriod_pos enabled
  have hsome : ¬ (!l.isEnabled || decide (l.sweepPeriod = 0)) = true := by
    simpa [enabled] using Nat.ne_of_gt hperiod
  have hdue : ∀ turn, turn < (stopAt - 1) / l.sweepPeriod ↔ l.sweepAt 0 turn < stopAt := by
    intro turn
    rw [← Nat.add_one_le_iff, Nat.le_div_iff_mul_le hperiod, sweepAt, Nat.zero_add]
    have hpos : 0 < (turn + 1) * l.sweepPeriod := Nat.mul_pos turn.succ_pos hperiod
    omega
  rw [Rehearsal.CacheTrial.Crowd.sweepTimes, if_neg hsome, List.mem_map]
  constructor
  · rintro ⟨turn, hturn, rfl⟩
    have htime : (turn + 1) * l.sweepPeriod = l.sweepAt 0 turn := (Nat.zero_add _).symm
    rw [htime]
    exact ⟨(hdue turn).1 (List.mem_range.1 hturn), turn, rfl⟩
  · rintro ⟨hstop, turn, rfl⟩
    exact ⟨turn, List.mem_range.2 ((hdue turn).2 hstop), (Nat.zero_add _).symm⟩

end Lifetimes

namespace Flights

variable {κ ε ν : Type}

/-! ### One sweep -/

/-- An entry that a sweep is to take: it has expired, and no call in flight takes part in it. -/
structure IsSpent (s : Flights κ ε ν) (now number : Nat) : Prop where
  alone : ∀ c ∈ s.calls, c.entry ≠ number
  expired : ∃ entry, s.entries[number]? = some entry ∧ entry.expires ≤ now

theorem isInUse_eq_false_iff {s : Flights κ ε ν} {number : Nat} :
    s.isInUse number = false ↔ ∀ c ∈ s.calls, c.entry ≠ number := by
  simp [isInUse]

theorem isIdle_eq_true_iff {s : Flights κ ε ν} {now number : Nat}
    (made : number < s.entries.length) : s.isIdle now number = true ↔ s.IsSpent now number := by
  have hentry : s.entries[number]? = some s.entries[number] := List.getElem?_eq_getElem made
  rw [isIdle, Bool.and_eq_true, Bool.not_eq_true', isInUse_eq_false_iff, hentry]
  constructor
  · rintro ⟨alone, expired⟩
    exact ⟨alone, _, hentry, of_decide_eq_true expired⟩
  · rintro ⟨alone, entry, hfound, expired⟩
    rw [hentry] at hfound
    obtain rfl := Option.some.inj hfound
    exact ⟨alone, decide_eq_true expired⟩

/-- A sweep takes what is spent and nothing else, and tells how much that was. -/
structure SweepsExactly (s : Flights κ ε ν) (now : Nat) : Prop where
  stays : ∀ pair, pair ∈ (s.sweep now).2.index ↔ pair ∈ s.index ∧ ¬ s.IsSpent now pair.2
  inOrder : (s.sweep now).2.index.Sublist s.index
  count : ∃ taken : List (κ × Nat), (s.sweep now).1 = taken.length ∧ taken.Nodup ∧
    ∀ pair, pair ∈ taken ↔ pair ∈ s.index ∧ s.IsSpent now pair.2
  unchanged : (s.sweep now).2 = { s with index := (s.sweep now).2.index }

theorem sweepsExactly {s : Flights κ ε ν} (made : ∀ pair ∈ s.index, pair.2 < s.entries.length)
    (single : (s.index.map Prod.fst).Nodup) (now : Nat) : s.SweepsExactly now where
  stays pair := by
    change pair ∈ s.index.filter (fun pair => !s.isIdle now pair.2) ↔ _
    rw [List.mem_filter, Bool.not_eq_true', ← Bool.not_eq_true]
    exact and_congr_right fun hpair => not_congr (isIdle_eq_true_iff (made pair hpair))
  inOrder := List.filter_sublist
  count := by
    refine ⟨s.index.filter fun pair => s.isIdle now pair.2, ?_, ?_, fun pair => ?_⟩
    · change s.index.length - (s.index.filter fun pair => !s.isIdle now pair.2).length = _
      rw [List.length_eq_length_filter_add fun pair : κ × Nat => s.isIdle now pair.2]
      exact Nat.add_sub_cancel _ _
    · exact (List.Nodup.of_map Prod.fst single).filter _
    · rw [List.mem_filter]
      exact and_congr_right fun hpair => isIdle_eq_true_iff (made pair hpair)
  unchanged := rfl

/-! ### An entry that calls have left alone -/

variable [DecidableEq κ]

/-- From a state at an instant on, no call takes part in an entry, whatever happens until another. -/
inductive LeftAlone (number past : Nat) (s : Flights κ ε ν) :
    List (Nat × Event κ ε ν) → Nat → Flights κ ε ν → Prop where
  | start (alone : ∀ c ∈ s.calls, c.entry ≠ number) : LeftAlone number past s [] past s
  | step {events : List (Nat × Event κ ε ν)} {earlier now : Nat} {event : Event κ ε ν}
      {t u : Flights κ ε ν} (leftAlone : LeftAlone number past s events earlier t)
      (later : earlier ≤ now) (step : Step now event t u)
      (alone : ∀ c ∈ u.calls, c.entry ≠ number) :
      LeftAlone number past s (events ++ [(now, event)]) now u

theorem Step.mem_index {now : Nat} {event : Event κ ε ν} {s t : Flights κ ε ν}
    (step : Step now event s t) {key : κ} {number : Nat} (made : number < s.entries.length)
    (h : (key, number) ∈ t.index) : (key, number) ∈ s.index := by
  cases step with
  | join id other =>
      rw [index_join] at h
      unfold locate at h
      split at h
      · exact h
      · rcases List.mem_append.1 h with hold | hnew
        · exact hold
        · obtain ⟨-, rfl⟩ := Prod.mk.inj (List.mem_singleton.1 hnew)
          exact absurd made (Nat.lt_irrefl _)
  | grasp | leave | answer | begin | load => exact h
  | sweep => exact List.mem_of_mem_filter h

/-- An entry changes only when a call that takes part in it stores its answer. -/
theorem Step.entry_eq {now : Nat} {event : Event κ ε ν} {s t : Flights κ ε ν}
    (step : Step now event s t) {number : Nat} {entry : Entry ε ν}
    (alone : ∀ c ∈ s.calls, c.entry ≠ number) (found : s.entries[number]? = some entry) :
    t.entries[number]? = some entry := by
  cases step with
  | join id key =>
      change (s.locate key now).2.entries[number]? = some entry
      unfold locate
      split
      · exact found
      · obtain ⟨hmade, -⟩ := List.getElem?_eq_some_iff.1 found
        rw [List.getElem?_append_left hmade, found]
  | load answer mem =>
      change (s.entries.set _ _)[number]? = some entry
      rw [List.getElem?_set_ne (alone _ mem), found]
  | grasp | leave | answer | begin | sweep => exact found

namespace LeftAlone

variable {number past now : Nat} {s t : Flights κ ε ν} {events : List (Nat × Event κ ε ν)}
  {entry : Entry ε ν}

theorem alone (leftAlone : LeftAlone number past s events now t) :
    ∀ c ∈ t.calls, c.entry ≠ number := by
  cases leftAlone with
  | start alone => exact alone
  | step _ _ _ alone => exact alone

theorem entry_eq (leftAlone : LeftAlone number past s events now t)
    (found : s.entries[number]? = some entry) : t.entries[number]? = some entry := by
  induction leftAlone with
  | start => exact found
  | step earlier _ step _ ih => exact step.entry_eq earlier.alone ih

/-- A sweep takes an entry that is left alone once it has expired, and it does not come back. -/
theorem not_mem_index (leftAlone : LeftAlone number past s events now t)
    (found : s.entries[number]? = some entry) {time count : Nat}
    (swept : (time, .swept count) ∈ events) (expired : entry.expires ≤ time) (key : κ) :
    (key, number) ∉ t.index := by
  induction leftAlone with
  | start => cases swept
  | @step events earlier now event t u before later step alone ih =>
      have hfound := before.entry_eq found
      have hmade : number < t.entries.length := (List.getElem?_eq_some_iff.1 hfound).1
      rcases List.mem_append.1 swept with hold | hnew
      · exact fun h => ih hold (step.mem_index hmade h)
      · obtain ⟨rfl, rfl⟩ := Prod.mk.inj (List.mem_singleton.1 hnew)
        cases step with
        | sweep =>
            intro h
            have hidle : t.isIdle time number = true :=
              (isIdle_eq_true_iff hmade).2 ⟨before.alone, entry, hfound, expired⟩
            have hkept : (!t.isIdle time number) = true := (List.mem_filter.1 h).2
            rw [hidle] at hkept
            cases hkept

end LeftAlone

/-- A sweeper that started at an instant has been on time: each of its sweeps that was due after
`past` and until `now` is among the events. -/
def SweptOnTime (lifetimes : Lifetimes) (start : Nat) (events : List (Nat × Event κ ε ν))
    (past now : Nat) : Prop :=
  ∀ turn, past < lifetimes.sweepAt start turn → lifetimes.sweepAt start turn ≤ now →
    ∃ count, (lifetimes.sweepAt start turn, .swept count) ∈ events

/-- In every state, a sweep takes exactly the expired entries in which no call takes part, and tells
their number.  So with a sweeper that has started at some instant, every entry is gone a period
after the latest of that instant, its expiry, and the last one at which a call took part in it. -/
theorem Run.sweeps_leave_nothing_behind {lifetimes : Lifetimes}
    {history : List (Nat × Event κ ε ν)} {past : Nat} {s : Flights κ ε ν}
    (run : Run lifetimes history past s) :
    (∀ now, s.SweepsExactly now) ∧
    (lifetimes.isEnabled = true →
      (∀ stopAt instant, instant ∈ Rehearsal.CacheTrial.Crowd.sweepTimes lifetimes stopAt ↔
        instant < stopAt ∧ ∃ turn, instant = lifetimes.sweepAt 0 turn) ∧
      ∀ number entry, s.entries[number]? = some entry →
        ∀ start events last now t, LeftAlone number past s events last t →
          SweptOnTime lifetimes start events past now →
          max (max start entry.expires) past + lifetimes.sweepPeriod ≤ now →
          ∀ key, (key, number) ∉ t.index) := by
  refine ⟨sweepsExactly run.consistent.made run.agrees.single, fun enabled =>
    ⟨Lifetimes.mem_sweepTimes_iff enabled, ?_⟩⟩
  intro number entry found start events last now t leftAlone onTime late key
  obtain ⟨turn, hafter, hbefore⟩ := Lifetimes.exists_sweepAt enabled
    (Nat.le_trans (Nat.le_max_left start entry.expires) (Nat.le_max_left _ past))
  have hpast : past < lifetimes.sweepAt start turn := by omega
  have hexpired : entry.expires ≤ lifetimes.sweepAt start turn := by omega
  obtain ⟨count, hswept⟩ := onTime turn hpast (Nat.le_trans hbefore late)
  exact leftAlone.not_mem_index found hswept hexpired key

/-- Failures are not kept.  An entry is left without an answer when a loader breaks down at 5; the
sweeper that started at 3 takes it at 23, while another entry, which is in use, stays. -/
theorem Run.sweeps_leave_nothing_behind_after_breakdown :
    ∃ (history events : List (Nat × Event String String Nat)) (s t : Flights String String Nat),
      Run ⟨20, 0⟩ history 5 s ∧ Lifetimes.isEnabled ⟨20, 0⟩ = true ∧ s.index = [("key", 0)] ∧
      s.entries[0]? = some (.vacant 0) ∧ LeftAlone 0 5 s events 23 t ∧
      SweptOnTime ⟨20, 0⟩ 3 events 5 25 ∧ t.index = [("other", 1)] ∧
      (∀ now, s.SweepsExactly now) ∧ ∀ key, (key, 0) ∉ t.index := by
  have begun : Run ⟨20, 0⟩ [] 0 (.empty ⟨20, 0⟩ : Flights String String Nat) := .start
  have joined := begun.step (Nat.le_refl 0) (.join 0 "key" rfl nofun)
  have grasped := joined.step (Nat.le_refl 0)
    (.grasp (c := ⟨0, "key", 0, .waiting⟩) (by decide) rfl (by decide))
  have began := grasped.step (Nat.le_refl 0)
    (.begin (c := ⟨0, "key", 0, .holding⟩) (by decide) rfl rfl rfl)
  have left : Run ⟨20, 0⟩ _ 5 (⟨⟨20, 0⟩, [.vacant 0], [("key", 0)], []⟩ : Flights String String Nat) :=
    began.step (Nat.zero_le 5) (.leave (c := ⟨0, "key", 0, .loading⟩) (by decide))
  have alone : LeftAlone 0 5 (⟨⟨20, 0⟩, [.vacant 0], [("key", 0)], []⟩ : Flights String String Nat)
      [] 5 _ := .start nofun
  have another := alone.step (by decide : 5 ≤ 10) (.join 1 "other" rfl (by decide)) (by decide)
  have swept := another.step (by decide : 10 ≤ 23) .sweep (by decide)
  have onTime : SweptOnTime ⟨20, 0⟩ 3
      ([] ++ [(10, .joined 1 "other")] ++ [(23, .swept 1)] : List (Nat × Event String String Nat))
      5 25 := by
    intro turn _ hbefore
    cases turn with
    | zero => exact ⟨1, by simp [Lifetimes.sweepAt, Lifetimes.sweepPeriod]⟩
    | succ turn =>
        have hperiod : Lifetimes.sweepPeriod ⟨20, 0⟩ = 20 := rfl
        rw [Lifetimes.sweepAt, hperiod] at hbefore
        omega
  obtain ⟨exactly, bounded⟩ := left.sweeps_leave_nothing_behind
  refine ⟨_, _, _, _, left, rfl, by decide, rfl, swept, onTime, by decide, exactly, ?_⟩
  exact (bounded rfl).2 0 (.vacant 0) rfl 3 _ 23 25 _ swept onTime (by decide)

end Flights

end ManifestRelay.Cache
