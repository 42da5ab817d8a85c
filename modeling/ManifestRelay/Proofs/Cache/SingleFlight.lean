import ManifestRelay.Proofs.Cache.Interleaving
import ManifestRelay.Proofs.Lookup

/-!
# One load at a time

A sweep forgets no entry that a call takes part in, so all calls in flight for a
key take part in the entry that the index has for it.  As one call at most holds
an entry, one call at most loads an answer for a key.
-/

namespace ManifestRelay.Cache

namespace Flights

variable {κ ε ν : Type}

/-! ### What the operations change -/

section Calls

variable (s : Flights κ ε ν) (id : Nat)

theorem mem_calls_depart {c : Call κ} :
    c ∈ (s.depart id).calls ↔ c ∈ s.calls ∧ c.id ≠ id := by
  simp [depart]

theorem ids_advance (stage : Stage) :
    (s.advance id stage).calls.map Call.id = s.calls.map Call.id := by
  rw [advance, List.map_map]
  refine List.map_congr_left fun c _ => ?_
  simp only [Function.comp]
  split <;> rfl

theorem mem_calls_advance {stage : Stage} {c : Call κ} (h : c ∈ (s.advance id stage).calls) :
    ∃ d ∈ s.calls, c.id = d.id ∧ c.key = d.key ∧ c.entry = d.entry ∧
      c.stage = if d.id = id then stage else d.stage := by
  obtain ⟨d, hd, rfl⟩ := List.mem_map.1 h
  refine ⟨d, hd, ?_⟩
  split <;> simp_all

end Calls

variable [DecidableEq κ]

section Index

variable (s : Flights κ ε ν) (id : Nat) (key : κ) (now : Nat)

theorem lookup_locate : (s.locate key now).2.index.lookup key = some (s.locate key now).1 := by
  unfold locate
  split
  · next entry h => exact h
  · next h => rw [List.lookup_append, h, Option.none_or, List.lookup_cons_self]

theorem lookup_locate_of_some {other : κ} {entry : Nat} (h : s.index.lookup other = some entry) :
    (s.locate key now).2.index.lookup other = some entry := by
  unfold locate
  split
  · exact h
  · rw [List.lookup_append, h, Option.some_or]

theorem made_locate (h : ∀ pair ∈ s.index, pair.2 < s.entries.length) :
    ∀ pair ∈ (s.locate key now).2.index, pair.2 < (s.locate key now).2.entries.length := by
  unfold locate
  split
  · exact h
  · intro pair hpair
    rw [List.length_append, List.length_singleton]
    rcases List.mem_append.1 hpair with hold | hnew
    · exact Nat.lt_succ_of_lt (h pair hold)
    · rw [List.mem_singleton.1 hnew]
      exact Nat.lt_succ_self _

theorem calls_locate : (s.locate key now).2.calls = s.calls := by
  unfold locate
  split <;> rfl

theorem calls_join :
    (s.join id key now).calls = s.calls ++ [⟨id, key, (s.locate key now).1, .waiting⟩] := by
  rw [← calls_locate s key now]
  rfl

theorem index_join : (s.join id key now).index = (s.locate key now).2.index := rfl

theorem lifetimes_join : (s.join id key now).lifetimes = s.lifetimes := by
  have hlocate : (s.locate key now).2.lifetimes = s.lifetimes := by
    unfold locate
    split <;> rfl
  exact hlocate

/-- An entry that a call takes part in survives every sweep. -/
theorem lookup_sweep {c : Call κ} (hc : c ∈ s.calls) (h : s.index.lookup c.key = some c.entry) :
    (s.sweep now).2.index.lookup c.key = some c.entry := by
  refine lookup_filter h ?_
  have hused : s.isInUse c.entry = true := by
    rw [isInUse, List.any_eq_true]
    exact ⟨c, hc, by simp⟩
  simp [isIdle, hused]

end Index

/-! ### Every step keeps them fitting -/

/-- Calls, entries and index fit together. -/
structure Consistent (s : Flights κ ε ν) : Prop where
  distinct : (s.calls.map Call.id).Nodup
  made : ∀ pair ∈ s.index, pair.2 < s.entries.length
  /-- A call takes part in the entry that the index has for its key. -/
  placed : ∀ c ∈ s.calls, s.index.lookup c.key = some c.entry
  /-- One call of an entry at most is done waiting. -/
  alone : ∀ c ∈ s.calls, ∀ d ∈ s.calls, c.stage ≠ .waiting → d.stage ≠ .waiting →
    c.entry = d.entry → c.id = d.id

namespace Consistent

variable {s : Flights κ ε ν} {now : Nat}

theorem empty (lifetimes : Lifetimes) :
    (Flights.empty lifetimes : Flights κ ε ν).Consistent where
  distinct := List.nodup_nil
  made := nofun
  placed := nofun
  alone := nofun

theorem eq_of_id (consistent : s.Consistent) {c d : Call κ} (hc : c ∈ s.calls)
    (hd : d ∈ s.calls) (hid : c.id = d.id) : c = d :=
  List.inj_on_of_nodup_map consistent.distinct hc hd hid

theorem found (consistent : s.Consistent) {c : Call κ} (hc : c ∈ s.calls) :
    ∃ entry, s.entries[c.entry]? = some entry := by
  have hmade := consistent.made (c.key, c.entry) (mem_of_lookup_eq_some (consistent.placed c hc))
  exact ⟨_, List.getElem?_eq_getElem hmade⟩

theorem join (consistent : s.Consistent) {id : Nat} (key : κ) (fresh : ∀ c ∈ s.calls, c.id ≠ id)
    (now : Nat) : (s.join id key now).Consistent where
  distinct := by
    rw [calls_join, List.map_append]
    refine consistent.distinct.append (List.nodup_singleton id) ?_
    intro number hold hnew
    obtain ⟨c, hc, rfl⟩ := List.mem_map.1 hold
    exact fresh c hc (List.mem_singleton.1 hnew)
  made := s.made_locate key now consistent.made
  placed := by
    intro c hc
    rw [calls_join] at hc
    rw [index_join]
    rcases List.mem_append.1 hc with hold | hnew
    · exact s.lookup_locate_of_some key now (consistent.placed c hold)
    · rw [List.mem_singleton.1 hnew]
      exact s.lookup_locate key now
  alone := by
    intro c hc d hd hcstage hdstage hentry
    rw [calls_join] at hc hd
    rcases List.mem_append.1 hc with hcold | hcnew
    · rcases List.mem_append.1 hd with hdold | hdnew
      · exact consistent.alone c hcold d hdold hcstage hdstage hentry
      · rw [List.mem_singleton.1 hdnew] at hdstage
        exact absurd rfl hdstage
    · rw [List.mem_singleton.1 hcnew] at hcstage
      exact absurd rfl hcstage

theorem depart (consistent : s.Consistent) (id : Nat) : (s.depart id).Consistent where
  distinct := consistent.distinct.sublist (List.filter_sublist.map Call.id)
  made := consistent.made
  placed c hc := consistent.placed c ((s.mem_calls_depart id).1 hc).1
  alone c hc d hd := consistent.alone c ((s.mem_calls_depart id).1 hc).1 d
    ((s.mem_calls_depart id).1 hd).1

theorem keep (consistent : s.Consistent) (entry : Nat) (answer : Except ε ν) (now : Nat) :
    (s.keep entry answer now).Consistent where
  distinct := consistent.distinct
  made := by simpa [Flights.keep] using consistent.made
  placed := consistent.placed
  alone := consistent.alone

/-- A call may move on if it is done waiting already, or if nobody holds its entry. -/
theorem advance (consistent : s.Consistent) {c : Call κ} (hc : c ∈ s.calls) (stage : Stage)
    (free : ∀ d ∈ s.calls, d.stage ≠ .waiting → d.entry = c.entry → d.id = c.id) :
    (s.advance c.id stage).Consistent where
  distinct := by
    rw [ids_advance]
    exact consistent.distinct
  made := consistent.made
  placed := by
    intro d hd
    obtain ⟨old, hold, -, hkey, hentry, -⟩ := s.mem_calls_advance c.id hd
    rw [hkey, hentry]
    exact consistent.placed old hold
  alone := by
    intro d hd e he hdstage hestage hentry
    obtain ⟨d', hd', hdid, -, hdentry, hdold⟩ := s.mem_calls_advance c.id hd
    obtain ⟨e', he', heid, -, heentry, heold⟩ := s.mem_calls_advance c.id he
    rw [hdentry, heentry] at hentry
    rw [hdid, heid]
    by_cases hdc : d'.id = c.id
    · by_cases hec : e'.id = c.id
      · rw [hdc, hec]
      · rw [if_neg hec] at heold
        obtain rfl := consistent.eq_of_id hd' hc hdc
        exact (free e' he' (heold ▸ hestage) hentry.symm).symm
    · rw [if_neg hdc] at hdold
      by_cases hec : e'.id = c.id
      · obtain rfl := consistent.eq_of_id he' hc hec
        exact free d' hd' (hdold ▸ hdstage) hentry
      · rw [if_neg hec] at heold
        exact consistent.alone d' hd' e' he' (hdold ▸ hdstage) (heold ▸ hestage) hentry

theorem sweep (consistent : s.Consistent) (now : Nat) : (s.sweep now).2.Consistent where
  distinct := consistent.distinct
  made pair hpair := consistent.made pair (List.mem_of_mem_filter hpair)
  placed c hc := s.lookup_sweep now hc (consistent.placed c hc)
  alone := consistent.alone

end Consistent

theorem Step.consistent {now : Nat} {event : Event κ ε ν} {s t : Flights κ ε ν}
    (step : Step now event s t) (consistent : s.Consistent) : t.Consistent := by
  cases step with
  | join _ key _ fresh => exact consistent.join key fresh now
  | grasp mem _ free =>
      refine consistent.advance mem .holding fun d hd hstage hentry => ?_
      have hheld : s.isHeld d.entry = true := by
        rw [isHeld, List.any_eq_true]
        exact ⟨d, hd, by simpa using hstage⟩
      rw [hentry, free] at hheld
      cases hheld
  | leave => exact consistent.depart _
  | answer => exact consistent.depart _
  | @begin _ c _ mem holding =>
      refine consistent.advance mem .loading fun d hd hstage hentry => ?_
      exact consistent.alone d hd c mem hstage (by rw [holding]; exact nofun) hentry
  | load answer => exact (consistent.keep _ answer now).depart _
  | sweep => exact consistent.sweep now

theorem Run.consistent {lifetimes : Lifetimes} {history : List (Nat × Event κ ε ν)} {now : Nat}
    {s : Flights κ ε ν} (run : Run lifetimes history now s) : s.Consistent := by
  induction run with
  | start => exact .empty lifetimes
  | step run later step ih => exact step.consistent ih

def loads (s : Flights κ ε ν) (key : κ) : Nat :=
  s.calls.countP fun c => c.key = key ∧ c.stage = .loading

theorem Consistent.loads_le_one {s : Flights κ ε ν} (consistent : s.Consistent) (key : κ) :
    s.loads key ≤ 1 := by
  rw [loads, List.countP_eq_length_filter]
  generalize hloading : s.calls.filter _ = loading
  have hmem : ∀ c ∈ loading, c ∈ s.calls ∧ c.key = key ∧ c.stage = .loading := by
    simp [← hloading]
  have hdistinct : (loading.map Call.id).Nodup :=
    consistent.distinct.sublist (hloading ▸ List.filter_sublist.map Call.id)
  match loading with
  | [] | [_] => simp
  | c :: d :: rest =>
      obtain ⟨hc, hckey, hcstage⟩ := hmem c (by simp)
      obtain ⟨hd, hdkey, hdstage⟩ := hmem d (by simp)
      have hentry : some c.entry = some d.entry := by
        rw [← consistent.placed c hc, ← consistent.placed d hd, hckey, hdkey]
      have hid := consistent.alone c hc d hd (by simp [hcstage]) (by simp [hdstage])
        (Option.some.inj hentry)
      simp [hid] at hdistinct

/-- However calls, loaders and sweeps interleave, one answer at most is being loaded for a key, and
every call in flight takes part in the entry that the index has for its key. -/
theorem Run.single_flight {lifetimes : Lifetimes} {history : List (Nat × Event κ ε ν)} {now : Nat}
    {s : Flights κ ε ν} (run : Run lifetimes history now s) :
    (∀ key, s.loads key ≤ 1) ∧ ∀ c ∈ s.calls, s.index.lookup c.key = some c.entry :=
  ⟨run.consistent.loads_le_one, run.consistent.placed⟩

/-- A second call waits through a sweep, and loads after the loader of the first broke down. -/
theorem Run.single_flight_after_breakdown :
    ∃ (history : List (Nat × Event String String Nat)) (s : Flights String String Nat),
      Run ⟨300, 60⟩ history 500 s ∧ s.loads "key" = 1 ∧
        (∀ key, s.loads key ≤ 1) ∧ ∀ c ∈ s.calls, s.index.lookup c.key = some c.entry := by
  have begun : Run ⟨300, 60⟩ [] 0 (.empty ⟨300, 60⟩ : Flights String String Nat) := .start
  have joined := begun.step (Nat.le_refl 0) (.join 0 "key" rfl nofun)
  have grasped := joined.step (Nat.le_refl 0)
    (.grasp (c := ⟨0, "key", 0, .waiting⟩) (by decide) rfl (by decide))
  have began := grasped.step (Nat.le_refl 0)
    (.begin (c := ⟨0, "key", 0, .holding⟩) (by decide) rfl rfl rfl)
  have joinedLater := began.step (Nat.zero_le 10) (.join 1 "key" rfl (by decide))
  have swept := joinedLater.step (by decide : 10 ≤ 400) .sweep
  have left := swept.step (by decide : 400 ≤ 500)
    (.leave (c := ⟨0, "key", 0, .loading⟩) (by decide))
  have graspedLater := left.step (Nat.le_refl 500)
    (.grasp (c := ⟨1, "key", 0, .waiting⟩) (by decide) rfl (by decide))
  have beganLater := graspedLater.step (Nat.le_refl 500)
    (.begin (c := ⟨1, "key", 0, .holding⟩) (by decide) rfl rfl rfl)
  exact ⟨_, _, beganLater, by decide, beganLater.single_flight⟩

end Flights

end ManifestRelay.Cache
