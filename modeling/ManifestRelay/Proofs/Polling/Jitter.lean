import ManifestRelay.Polling.Jitter

/-!
# Bounds of a random shift

A duration is never shifted out of the range that its percent allow, except that 64 bits of
nanoseconds may be too few to tell how long it has become.  No step of the arithmetic fails, however
long the duration is and whatever the random number is.
-/

namespace ManifestRelay.Polling

/-! ### Steps that may fail -/

theorem inWideRange_eq_some_iff {n m : Nat} :
    inWideRange n = some m ↔ n < Binary.patterns 128 ∧ m = n := by
  rw [inWideRange, Option.ite_none_right_eq_some, Option.some.injEq, eq_comm (a := n)]
  exact and_congr_left' decide_eq_true_iff

theorem difference_eq_some_iff {a b c : Nat} : difference a b = some c ↔ b ≤ a ∧ c = a - b := by
  rw [difference, Option.ite_none_right_eq_some, Option.some.injEq, eq_comm (a := a - b)]

theorem remainder_eq_some_iff {a b c : Nat} : remainder a b = some c ↔ 0 < b ∧ c = a % b := by
  rw [remainder, Option.ite_none_left_eq_some, Option.some.injEq, eq_comm (a := a % b),
    Nat.pos_iff_ne_zero]

theorem jitterRange_eq_some_iff {nanos percent range : Nat} :
    jitterRange nanos percent = some range ↔
      nanos * percent < Binary.patterns 128 ∧ range = nanos * percent / 100 := by
  unfold jitterRange
  rw [Option.map_eq_some_iff]
  constructor
  · rintro ⟨product, hproduct, rfl⟩
    obtain ⟨hholds, rfl⟩ := inWideRange_eq_some_iff.1 hproduct
    exact ⟨hholds, rfl⟩
  · rintro ⟨hholds, rfl⟩
    exact ⟨_, inWideRange_eq_some_iff.2 ⟨hholds, rfl⟩, rfl⟩

theorem exists_range_of_jittered {nanos percent draw shifted : Nat}
    (h : jittered nanos percent draw = some shifted) :
    ∃ range, jitterRange nanos percent = some range := by
  obtain ⟨range, hrange, -⟩ := Option.bind_eq_some_iff.1 h
  exact ⟨range, hrange⟩

section Shift

variable {nanos percent range : Nat} (draw : Nat)
  (hrange : jitterRange nanos percent = some range)

include hrange

theorem jittered_of_range_zero (stays : range = 0) : jittered nanos percent draw = some nanos := by
  rw [jittered, hrange]
  exact if_pos stays

/-- The shift is the remainder of the random number, counted from the lower end of the range. -/
theorem jittered_eq_some_iff (shifts : 0 < range) {shifted : Nat} :
    jittered nanos percent draw = some shifted ↔
      2 * range < Binary.patterns 128 ∧
        nanos + draw % (2 * range) < Binary.patterns 128 ∧
        range ≤ nanos + draw % (2 * range) ∧
        shifted = min (nanos + draw % (2 * range) - range) (Binary.greatestNatural 64) := by
  have hne : range ≠ 0 := Nat.ne_of_gt shifts
  simp only [jittered, hrange, Option.bind_eq_bind, Option.bind_some, if_neg hne]
  simp only [Option.bind_eq_some_iff, inWideRange_eq_some_iff, difference_eq_some_iff,
    remainder_eq_some_iff, Option.pure_def, Option.some.injEq]
  constructor
  · rintro ⟨_, ⟨hspan, rfl⟩, _, ⟨-, rfl⟩, _, ⟨hsum, rfl⟩, _, ⟨hle, rfl⟩, rfl⟩
    exact ⟨hspan, hsum, hle, rfl⟩
  · rintro ⟨hspan, hsum, hle, rfl⟩
    exact ⟨_, ⟨hspan, rfl⟩, _, ⟨by omega, rfl⟩, _, ⟨hsum, rfl⟩, _, ⟨hle, rfl⟩, rfl⟩

end Shift

/-! ### Durations -/

/-- The longest duration in nanoseconds: 64 bits of seconds, and all nanoseconds of a further one
but the last. -/
def longest : Nat := Binary.greatestNatural 64 * 1000000000 + 999999999

/-- 128 bits have room for a hundred of the longest durations. -/
theorem longest_mul_lt : longest * 100 < Binary.patterns 128 := by decide

/-- Whatever number is drawn, it shifts a duration to some place in the range, and there is no
place in the range to which no number shifts it.  The places are told in 64 bits as far as these
suffice. -/
structure StaysInRange (nanos range : Nat) (shifted : Nat → Option Nat) : Prop where
  within : ∀ draw, ∃ place, nanos - range ≤ place ∧ place < nanos + range ∧
    shifted draw = some (min place (Binary.greatestNatural 64))
  reached : ∀ place, nanos - range ≤ place → place < nanos + range →
    ∃ draw, draw < Binary.patterns 128 ∧
      shifted draw = some (min place (Binary.greatestNatural 64))

namespace StaysInRange

variable {nanos range draw result : Nat} {shifted : Nat → Option Nat}

theorem lt (stays : StaysInRange nanos range shifted) (h : shifted draw = some result) :
    result < nanos + range := by
  obtain ⟨place, -, hplace, hresult⟩ := stays.within draw
  rw [h] at hresult
  obtain rfl := Option.some.inj hresult
  exact Nat.lt_of_le_of_lt (Nat.min_le_left _ _) hplace

theorem greatest_lt (stays : StaysInRange nanos range shifted) (h : shifted draw = some result)
    (below : result < nanos - range) : Binary.greatestNatural 64 < nanos - range := by
  obtain ⟨place, hplace, -, hresult⟩ := stays.within draw
  rw [h] at hresult
  obtain rfl := Option.some.inj hresult
  omega

end StaysInRange

section Bounds

variable {nanos percent : Nat} (duration : nanos ≤ longest) (share : percent ≤ 100)

include duration share

theorem jitterRange_of_le : jitterRange nanos percent = some (nanos * percent / 100) := by
  refine jitterRange_eq_some_iff.2 ⟨?_, rfl⟩
  calc nanos * percent ≤ longest * 100 := Nat.mul_le_mul duration share
    _ < Binary.patterns 128 := longest_mul_lt

theorem jittered_of_le {range : Nat} (percentage : range = nanos * percent / 100)
    (shifts : 0 < range) (draw : Nat) :
    range ≤ nanos ∧ draw % (2 * range) < 2 * range ∧
      jittered nanos percent draw =
        some (min (nanos + draw % (2 * range) - range) (Binary.greatestNatural 64)) := by
  have hrange : jitterRange nanos percent = some range :=
    percentage ▸ jitterRange_of_le duration share
  have hle : range ≤ nanos := by
    have hproduct : nanos * percent ≤ nanos * 100 := Nat.mul_le_mul_left nanos share
    omega
  have hshift : draw % (2 * range) < 2 * range := Nat.mod_lt draw (by omega)
  have hroom := longest_mul_lt
  refine ⟨hle, hshift, (jittered_eq_some_iff draw hrange shifts).2 ⟨?_, ?_, ?_, rfl⟩⟩ <;> omega

theorem staysInRange_jittered {range : Nat} (percentage : range = nanos * percent / 100)
    (shifts : 0 < range) : StaysInRange nanos range (jittered nanos percent) where
  within draw := by
    obtain ⟨hle, hshift, hjittered⟩ := jittered_of_le duration share percentage shifts draw
    exact ⟨_, by omega, by omega, hjittered⟩
  reached place hlow hhigh := by
    -- The place is counted from the lower end of the range.
    refine ⟨place + range - nanos, ?_, ?_⟩
    · have hle := (jittered_of_le duration share percentage shifts 0).1
      have hroom := longest_mul_lt
      omega
    · obtain ⟨hle, -, hjittered⟩ :=
        jittered_of_le duration share percentage shifts (place + range - nanos)
      have hsmall : place + range - nanos < 2 * range := by omega
      have hplace : nanos + (place + range - nanos) - range = place := by omega
      rwa [Nat.mod_eq_of_lt hsmall, hplace] at hjittered

/-- A duration of which no percent can be told in nanoseconds is not shifted, whatever number is
drawn.  Any other is shifted to a place in its range, never as far as the upper end, and below the
lower end only if that is more than 64 bits can tell. -/
theorem jitter_keeps_in_range :
    (nanos * percent / 100 = 0 → ∀ draw, jittered nanos percent draw = some nanos) ∧
      (0 < nanos * percent / 100 →
        StaysInRange nanos (nanos * percent / 100) (jittered nanos percent) ∧
        ∀ draw result, jittered nanos percent draw = some result →
          result < nanos + nanos * percent / 100 ∧
          (result < nanos - nanos * percent / 100 →
            Binary.greatestNatural 64 < nanos - nanos * percent / 100)) := by
  constructor
  · intro stays draw
    exact jittered_of_range_zero draw (jitterRange_of_le duration share) stays
  · intro shifts
    have hstays := staysInRange_jittered duration share rfl shifts
    exact ⟨hstays, fun draw result h => ⟨hstays.lt h, hstays.greatest_lt h⟩⟩

end Bounds

/-- Five percent of the longest duration shift it, though 64 bits cannot tell where to. -/
theorem jitter_keeps_in_range_longest :
    longest ≤ longest ∧ ageJitterPercent ≤ 100 ∧ 0 < longest * ageJitterPercent / 100 ∧
      StaysInRange longest (longest * ageJitterPercent / 100) (jittered longest ageJitterPercent) ∧
      jittered longest ageJitterPercent 1 = some (Binary.greatestNatural 64) ∧
      Binary.greatestNatural 64 < longest - longest * ageJitterPercent / 100 := by
  have hshare : ageJitterPercent ≤ 100 := by decide
  have hshifts : 0 < longest * ageJitterPercent / 100 := by decide
  have hstays := ((jitter_keeps_in_range (Nat.le_refl longest) hshare).2 hshifts).1
  exact ⟨Nat.le_refl longest, hshare, hshifts, hstays, by decide, by decide⟩

end ManifestRelay.Polling
