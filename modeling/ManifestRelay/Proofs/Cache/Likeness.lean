import ManifestRelay.Proofs.Cache.Ledger

/-!
# What calls for some keys see of a cache

Calls see of a cache which calls for their keys are in flight, how far those have come, and
what is fresh for their keys.  They do not see the numbers of entries, whether a key has
an entry of which nothing is fresh, or anything of other keys.  Two caches that look alike
now go on looking alike: a call takes the same step in both, and sweeps and the steps
of other calls do not show.
-/

namespace ManifestRelay.Cache

variable {κ ε ν : Type}

namespace Event

/-- Whether an event is one of the calls for some keys; `keyOf` has the key that each call asks
for. -/
def isFor (keyOf : Nat → κ) (chosen : κ → Bool) : Event κ ε ν → Bool
  | .joined id _ | .grasped id | .left id | .answered id _ | .began id | .loaded id _ =>
      chosen (keyOf id)
  | .swept _ => false

def IsNamed (keyOf : Nat → κ) : Event κ ε ν → Prop
  | .joined id key => key = keyOf id
  | _ => True

end Event

namespace Flights

/-- The calls in flight for some keys, each with its key and stage. -/
def seen (chosen : κ → Bool) (s : Flights κ ε ν) : List (Nat × κ × Stage) :=
  (s.calls.filter fun c => chosen c.key).map fun c => (c.id, c.key, c.stage)

section Seen

variable {chosen : κ → Bool} (s : Flights κ ε ν) (id : Nat)

theorem mem_seen {view : Nat × κ × Stage} : view ∈ s.seen chosen ↔
    ∃ c ∈ s.calls, chosen c.key = true ∧ (c.id, c.key, c.stage) = view := by
  simp [Flights.seen, and_assoc]

theorem seen_depart : (s.depart id).seen chosen = (s.seen chosen).filter (·.1 != id) := by
  simp [seen, depart, List.filter_map, List.filter_filter, Function.comp_def, Bool.and_comm]

theorem seen_advance (stage : Stage) : (s.advance id stage).seen chosen =
    (s.seen chosen).map fun (number, key, old) =>
      (number, key, if number = id then stage else old) := by
  have hkey : ∀ c : Call κ, (if c.id = id then { c with stage } else c).key = c.key := by
    intro c
    split <;> rfl
  simp only [seen, advance, List.filter_map, List.map_map, Function.comp_def, hkey]
  refine List.map_congr_left fun c _ => ?_
  split <;> rfl

end Seen

variable [DecidableEq κ]

def freshFor? (s : Flights κ ε ν) (key : κ) (time : Nat) : Option (Except ε ν) :=
  (s.place? key).bind fun entry => entry.fresh? time

/-- From an instant on, two caches look alike to the calls for some keys. -/
structure Alike (chosen : κ → Bool) (now : Nat) (s t : Flights κ ε ν) : Prop where
  lifetimes : s.lifetimes = t.lifetimes
  seen : s.seen chosen = t.seen chosen
  fresh : ∀ key, chosen key = true →
    ∀ time, now ≤ time → s.freshFor? key time = t.freshFor? key time

/-- A cache at an instant whose calls ask for the keys that they should. -/
structure IsSound (keyOf : Nat → κ) (now : Nat) (s : Flights κ ε ν) : Prop where
  consistent : s.Consistent
  agrees : ∃ ledger, s.Agrees ledger now
  keyed : ∀ c ∈ s.calls, c.key = keyOf c.id

variable {keyOf : Nat → κ} {chosen : κ → Bool} {now : Nat} {s t u : Flights κ ε ν}

namespace IsSound

theorem empty (lifetimes : Lifetimes) :
    (Flights.empty lifetimes : Flights κ ε ν).IsSound keyOf 0 where
  consistent := .empty lifetimes
  agrees := ⟨_, .empty lifetimes⟩
  keyed := nofun

theorem later (sound : s.IsSound keyOf now) {time : Nat} (later : now ≤ time) :
    s.IsSound keyOf time where
  consistent := sound.consistent
  agrees := by
    obtain ⟨ledger, agrees⟩ := sound.agrees
    exact ⟨ledger, agrees.later later⟩
  keyed := sound.keyed

theorem step (sound : s.IsSound keyOf now) {event : Event κ ε ν} (step : Step now event s t)
    (named : event.IsNamed keyOf) : t.IsSound keyOf now where
  consistent := step.consistent sound.consistent
  agrees := by
    obtain ⟨ledger, agrees⟩ := sound.agrees
    exact ⟨_, step.agrees sound.consistent agrees (Nat.le_refl now)⟩
  keyed := by
    intro c hc
    cases step with
    | join id key =>
        rw [calls_join] at hc
        rcases List.mem_append.1 hc with hold | hnew
        · exact sound.keyed c hold
        · rw [List.mem_singleton.1 hnew]
          exact named
    | grasp | begin =>
        obtain ⟨old, hold, hid, hkey, -, -⟩ := s.mem_calls_advance _ hc
        rw [hid, hkey]
        exact sound.keyed old hold
    | leave | answer => exact sound.keyed c ((s.mem_calls_depart _).1 hc).1
    | load answer => exact sound.keyed c (((s.keep _ answer now).mem_calls_depart _).1 hc).1
    | sweep => exact sound.keyed c hc

theorem entry_eq_iff (sound : s.IsSound keyOf now) {c d : Call κ} (hc : c ∈ s.calls)
    (hd : d ∈ s.calls) : c.entry = d.entry ↔ c.key = d.key := by
  have hcplaced := sound.consistent.placed c hc
  have hdplaced := sound.consistent.placed d hd
  constructor
  · obtain ⟨ledger, agrees⟩ := sound.agrees
    exact agrees.apart _ (mem_of_lookup_eq_some hcplaced) _ (mem_of_lookup_eq_some hdplaced)
  · intro hkey
    rw [hkey, hdplaced] at hcplaced
    exact (Option.some.inj hcplaced).symm

theorem fresh?_entry (sound : s.IsSound keyOf now) {c : Call κ} (hc : c ∈ s.calls) (time : Nat) :
    ((s.entries[c.entry]?).bind fun entry => entry.fresh? time) = s.freshFor? c.key time := by
  rw [freshFor?, place?, sound.consistent.placed c hc, Option.bind_some]

end IsSound

/-! ### What the operations do to what calls see -/

theorem seen_join (s : Flights κ ε ν) (id : Nat) (key : κ) (now : Nat) :
    (s.join id key now).seen chosen =
      s.seen chosen ++ if chosen key = true then [(id, key, .waiting)] else [] := by
  rw [seen, calls_join, List.filter_append, List.map_append]
  cases h : chosen key <;> simp [h, Flights.seen]

theorem freshFor?_join (consistent : s.Consistent) (id : Nat) (key other : κ) {time : Nat}
    (later : now ≤ time) : (s.join id key now).freshFor? other time = s.freshFor? other time := by
  change ((s.locate key now).2.place? other).bind _ = (s.place? other).bind _
  rcases place?_locate consistent.made key now other with hsame | ⟨hnone, hvacant⟩
  · rw [hsame]
  · rw [hnone, hvacant, Option.bind_some, Option.bind_none, Entry.fresh?]
    exact if_pos (decide_eq_true later)

theorem freshFor?_keep (consistent : s.Consistent) {c : Call κ} (hc : c ∈ s.calls)
    (answer : Except ε ν) (time : Nat) : (s.keep c.entry answer now).freshFor? c.key time =
      (Entry.filled s.lifetimes answer now).fresh? time := by
  have hplaced := consistent.placed c hc
  have hmade := consistent.made _ (mem_of_lookup_eq_some hplaced)
  rw [freshFor?, place?_keep hplaced hmade, Option.bind_some]

theorem freshFor?_keep_of_ne (sound : s.IsSound keyOf now) {c : Call κ} (hc : c ∈ s.calls)
    {key : κ} (other : key ≠ c.key) (answer : Except ε ν) (time : Nat) :
    (s.keep c.entry answer now).freshFor? key time = s.freshFor? key time := by
  have hplaced := sound.consistent.placed c hc
  obtain ⟨ledger, agrees⟩ := sound.agrees
  have hother : s.index.lookup key ≠ some c.entry := fun h =>
    other (agrees.apart _ (mem_of_lookup_eq_some h) _ (mem_of_lookup_eq_some hplaced) rfl)
  rw [freshFor?, place?_keep_of_ne hother, freshFor?]

theorem freshFor?_sweep (sound : s.IsSound keyOf now) (key : κ) {time : Nat}
    (later : now ≤ time) : (s.sweep now).2.freshFor? key time = s.freshFor? key time := by
  obtain ⟨ledger, agrees⟩ := sound.agrees
  rw [freshFor?, freshFor?]
  rcases place?_sweep agrees.single key now with hsame | ⟨hnone, hexpired⟩
  · rw [hsame]
  · rw [hnone, Option.bind_none, eq_comm, Option.bind_eq_none_iff]
    intro entry hentry
    have hover : entry.expires ≤ time :=
      Nat.le_trans (of_decide_eq_true (hexpired entry hentry)) later
    exact if_pos (decide_eq_true hover)

/-! ### Looking alike -/

namespace Alike

theorem refl (s : Flights κ ε ν) : Alike chosen now s s := ⟨rfl, rfl, fun _ _ _ _ => rfl⟩

theorem symm (alike : Alike chosen now s t) : Alike chosen now t s where
  lifetimes := alike.lifetimes.symm
  seen := alike.seen.symm
  fresh key hkey time later := (alike.fresh key hkey time later).symm

theorem trans (first : Alike chosen now s t) (second : Alike chosen now t u) :
    Alike chosen now s u where
  lifetimes := first.lifetimes.trans second.lifetimes
  seen := first.seen.trans second.seen
  fresh key hkey time later :=
    (first.fresh key hkey time later).trans (second.fresh key hkey time later)

theorem later (alike : Alike chosen now s t) {time : Nat} (later : now ≤ time) :
    Alike chosen time s t where
  lifetimes := alike.lifetimes
  seen := alike.seen
  fresh key hkey other hother := alike.fresh key hkey other (Nat.le_trans later hother)

theorem depart (alike : Alike chosen now s t) (id : Nat) :
    Alike chosen now (s.depart id) (t.depart id) where
  lifetimes := alike.lifetimes
  seen := by rw [seen_depart, seen_depart, alike.seen]
  fresh := alike.fresh

theorem advance (alike : Alike chosen now s t) (id : Nat) (stage : Stage) :
    Alike chosen now (s.advance id stage) (t.advance id stage) where
  lifetimes := alike.lifetimes
  seen := by rw [seen_advance, seen_advance, alike.seen]
  fresh := alike.fresh

theorem join (alike : Alike chosen now s t) (hs : s.Consistent) (ht : t.Consistent) (id : Nat)
    (key : κ) : Alike chosen now (s.join id key now) (t.join id key now) where
  lifetimes := by rw [lifetimes_join, lifetimes_join, alike.lifetimes]
  seen := by rw [seen_join, seen_join, alike.seen]
  fresh other hother time later := by
    rw [freshFor?_join hs id key other later, freshFor?_join ht id key other later]
    exact alike.fresh other hother time later

theorem keep (alike : Alike chosen now s t) (hs : s.IsSound keyOf now) (ht : t.IsSound keyOf now)
    {c d : Call κ} (hc : c ∈ s.calls) (hd : d ∈ t.calls) (hkey : d.key = c.key)
    (answer : Except ε ν) :
    Alike chosen now (s.keep c.entry answer now) (t.keep d.entry answer now) where
  lifetimes := alike.lifetimes
  seen := alike.seen
  fresh key hchosen time later := by
    by_cases hown : key = c.key
    · rw [hown, freshFor?_keep hs.consistent hc, ← hkey, freshFor?_keep ht.consistent hd,
        alike.lifetimes]
    · rw [freshFor?_keep_of_ne hs hc hown, freshFor?_keep_of_ne ht hd (hkey ▸ hown)]
      exact alike.fresh key hchosen time later

/-- A call that is seen in one cache is in flight in the other, as far as there. -/
theorem call (alike : Alike chosen now s t) {c : Call κ} (hc : c ∈ s.calls)
    (hchosen : chosen c.key = true) :
    ∃ d ∈ t.calls, d.id = c.id ∧ d.key = c.key ∧ d.stage = c.stage := by
  have hview : (c.id, c.key, c.stage) ∈ t.seen chosen := by
    rw [← alike.seen, mem_seen]
    exact ⟨c, hc, hchosen, rfl⟩
  obtain ⟨d, hd, -, heq⟩ := (t.mem_seen).1 hview
  injection heq with hid heq
  injection heq with hkey hstage
  exact ⟨d, hd, hid, hkey, hstage⟩

end Alike

/-- An entry is free if no call for its key is done waiting. -/
theorem IsSound.isHeld_eq_false_iff (sound : s.IsSound keyOf now) {c : Call κ}
    (hc : c ∈ s.calls) :
    s.isHeld c.entry = false ↔ ∀ d ∈ s.calls, d.key = c.key → d.stage = .waiting := by
  have hentry : ∀ d ∈ s.calls, d.entry = c.entry ↔ d.key = c.key :=
    fun d hd => sound.entry_eq_iff hd hc
  simp only [isHeld, List.any_eq_false]
  refine forall₂_congr fun d hd => ?_
  rw [← hentry d hd]
  simp

/-! ### Steps that do not show -/

theorem IsSound.ne_of_mem_seen (sound : s.IsSound keyOf now) {id : Nat}
    (hidden : chosen (keyOf id) = false) {view : Nat × κ × Stage} (h : view ∈ s.seen chosen) :
    view.1 ≠ id := by
  obtain ⟨c, hc, hchosen, rfl⟩ := (s.mem_seen).1 h
  rintro rfl
  rw [sound.keyed c hc, hidden] at hchosen
  cases hchosen

namespace Alike

theorem depart_hidden (sound : s.IsSound keyOf now) {id : Nat}
    (hidden : chosen (keyOf id) = false) : Alike chosen now (s.depart id) s where
  lifetimes := rfl
  seen := by
    rw [seen_depart, List.filter_eq_self]
    intro view hview
    exact bne_iff_ne.2 (sound.ne_of_mem_seen hidden hview)
  fresh _ _ _ _ := rfl

theorem advance_hidden (sound : s.IsSound keyOf now) {id : Nat}
    (hidden : chosen (keyOf id) = false) (stage : Stage) :
    Alike chosen now (s.advance id stage) s where
  lifetimes := rfl
  seen := by
    rw [seen_advance]
    refine (List.map_congr_left fun view hview => ?_).trans (List.map_id _)
    simp only [if_neg (sound.ne_of_mem_seen hidden hview), id_eq]
  fresh _ _ _ _ := rfl

theorem join_hidden (sound : s.IsSound keyOf now) (id : Nat) {key : κ}
    (hidden : chosen key = false) : Alike chosen now (s.join id key now) s where
  lifetimes := s.lifetimes_join id key now
  seen := by
    rw [seen_join, hidden]
    exact List.append_nil _
  fresh other _ _ later := freshFor?_join sound.consistent id key other later

theorem keep_hidden (sound : s.IsSound keyOf now) {c : Call κ} (hc : c ∈ s.calls)
    (hidden : chosen c.key = false) (answer : Except ε ν) :
    Alike chosen now (s.keep c.entry answer now) s where
  lifetimes := rfl
  seen := rfl
  fresh key hkey time _ := by
    refine freshFor?_keep_of_ne sound hc ?_ answer time
    rintro rfl
    rw [hidden] at hkey
    cases hkey

end Alike

/-- Sweeps, and the steps of calls for other keys, do not show. -/
theorem Step.alike {event : Event κ ε ν} (step : Step now event s t)
    (sound : s.IsSound keyOf now) (named : event.IsNamed keyOf)
    (hidden : event.isFor keyOf chosen = false) : Alike chosen now t s := by
  cases step with
  | join id key =>
      rw [Event.isFor, ← named] at hidden
      exact .join_hidden sound id hidden
  | grasp | begin => exact .advance_hidden sound hidden _
  | leave | answer => exact .depart_hidden sound hidden
  | @load _ c answer mem =>
      have hkey : chosen c.key = false := by
        rw [sound.keyed c mem]
        exact hidden
      have hkept := Alike.keep_hidden sound mem hkey answer
      exact (hkept.depart c.id).trans (.depart_hidden sound hidden)
  | sweep => exact ⟨rfl, rfl, fun key _ _ later => freshFor?_sweep sound key later⟩

/-! ### Steps that show -/

/-- A call for one of the keys takes the same step in both of two caches that look alike. -/
theorem Alike.step {event : Event κ ε ν} (alike : Alike chosen now s t)
    (hs : s.IsSound keyOf now) (ht : t.IsSound keyOf now) (named : event.IsNamed keyOf)
    (visible : event.isFor keyOf chosen = true) (step : Step now event s u) :
    ∃ v, Step now event t v ∧ Alike chosen now u v := by
  have hchosen : ∀ c ∈ s.calls, chosen (keyOf c.id) = true → chosen c.key = true := by
    intro c hc h
    rw [hs.keyed c hc]
    exact h
  cases step with
  | join id key enabled fresh =>
      refine ⟨_, .join id key (alike.lifetimes ▸ enabled) ?_,
        alike.join hs.consistent ht.consistent id key⟩
      intro d hd hid
      have hd' : chosen d.key = true := by
        rw [ht.keyed d hd, hid]
        exact visible
      obtain ⟨c, hc, hcid, -, -⟩ := alike.symm.call hd hd'
      exact fresh c hc (hcid.trans hid)
  | @grasp _ c mem waiting free =>
      obtain ⟨d, hd, hid, hkey, hstage⟩ := alike.call mem (hchosen c mem visible)
      rw [← hid]
      refine ⟨_, .grasp hd (hstage.trans waiting) ?_, alike.advance d.id .holding⟩
      rw [ht.isHeld_eq_false_iff hd]
      intro e he hekey
      obtain ⟨f, hf, -, hfkey, hfstage⟩ := alike.symm.call he
        (by rw [hekey, hkey]; exact hchosen c mem visible)
      rw [← hfstage]
      exact (hs.isHeld_eq_false_iff mem).1 free f hf (by rw [hfkey, hekey, hkey])
  | @leave _ c mem =>
      obtain ⟨d, hd, hid, -, -⟩ := alike.call mem (hchosen c mem visible)
      rw [← hid]
      exact ⟨_, .leave hd, alike.depart d.id⟩
  | @answer _ c entry answer mem holding found kept =>
      obtain ⟨d, hd, hid, hkey, hstage⟩ := alike.call mem (hchosen c mem visible)
      have hfresh : t.freshFor? d.key now = some answer := by
        rw [hkey, ← alike.fresh _ (hchosen c mem visible) now (Nat.le_refl now),
          ← hs.fresh?_entry mem, found]
        exact kept
      rw [← ht.fresh?_entry hd] at hfresh
      obtain ⟨other, hfound, hkept⟩ := Option.bind_eq_some_iff.1 hfresh
      rw [← hid]
      exact ⟨_, .answer hd (hstage.trans holding) hfound hkept, alike.depart d.id⟩
  | @begin _ c entry mem holding found stale =>
      obtain ⟨d, hd, hid, hkey, hstage⟩ := alike.call mem (hchosen c mem visible)
      obtain ⟨other, hfound⟩ := ht.consistent.found hd
      have hstale : other.fresh? now = none := by
        have hfresh := alike.fresh _ (hchosen c mem visible) now (Nat.le_refl now)
        rw [← hs.fresh?_entry mem, ← hkey, ← ht.fresh?_entry hd, found, hfound] at hfresh
        exact hfresh.symm.trans stale
      rw [← hid]
      exact ⟨_, .begin hd (hstage.trans holding) hfound hstale, alike.advance d.id .loading⟩
  | @load _ c answer mem loading =>
      obtain ⟨d, hd, hid, hkey, hstage⟩ := alike.call mem (hchosen c mem visible)
      have hkept := alike.keep hs ht mem hd hkey answer
      rw [← hid]
      exact ⟨_, .load answer hd (hstage.trans loading), hkept.depart d.id⟩
  | sweep => cases visible

end Flights

end ManifestRelay.Cache
