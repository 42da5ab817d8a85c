import ManifestRelay.Proofs.Cache.SingleFlight

/-!
# Answers that are justified

A cache can be described without entries, index and calls: by a ledger that has, for
each key, the loads that were completed for it.  What a call is given without loading
is the latest load for its key, while that lasts; and a call loads only where no load
lasts.  Sweeps, calls that leave and loaders that break down do not show in the ledger,
so they make no difference to what calls are given.
-/

namespace ManifestRelay.Cache

structure Completion (ε ν : Type) where
  time : Nat
  answer : Except ε ν

/-- What the completed loads of a history were, and which calls asked for which keys. -/
structure Ledger (κ ε ν : Type) where
  /-- The key that a call asks for; of calls with one number the last one counts. -/
  keyOf : Nat → Option κ
  /-- The completed loads for a key, the latest last. -/
  loads : κ → List (Completion ε ν)

section Lasting

variable {ε ν : Type} (lifetimes : Lifetimes)

/-- First instant at which a completed load does not last any more. -/
def Completion.expiry (load : Completion ε ν) : Nat := load.time + lifetimes.of load.answer

def Over (loads : List (Completion ε ν)) (now : Nat) : Prop :=
  ∀ load ∈ loads, load.expiry lifetimes ≤ now

/-- The answer of the latest load, if it lasts. -/
def lasting? (loads : List (Completion ε ν)) (now : Nat) : Option (Except ε ν) :=
  loads.getLast?.bind fun load =>
    if load.expiry lifetimes ≤ now then none else some load.answer

/-- What the place for a key tells of the loads for the key: it has the latest of them if
it has any, and every load that it does not have is over. -/
inductive Tells (now : Nat) : Option (Entry ε ν) → List (Completion ε ν) → Prop where
  | absent {loads : List (Completion ε ν)} (gone : Over lifetimes loads now) :
      Tells now none loads
  | vacant {entry : Entry ε ν} {loads : List (Completion ε ν)} (unanswered : entry.answer = none)
      (gone : Over lifetimes loads now) : Tells now (some entry) loads
  | filled {earlier : List (Completion ε ν)} (latest : Completion ε ν)
      (gone : Over lifetimes earlier now) :
      Tells now (some (.filled lifetimes latest.answer latest.time)) (earlier ++ [latest])

variable {lifetimes} {past now : Nat} {place : Option (Entry ε ν)}
  {loads : List (Completion ε ν)}

theorem Over.later (gone : Over lifetimes loads past) (later : past ≤ now) :
    Over lifetimes loads now :=
  fun load hload => Nat.le_trans (gone load hload) later

theorem lasting?_eq_none_of_over (gone : Over lifetimes loads now) :
    lasting? lifetimes loads now = none := by
  rw [lasting?, Option.bind_eq_none_iff]
  intro load hload
  rw [if_pos (gone load (List.mem_of_getLast? hload))]

theorem lasting?_eq_some_iff {answer : Except ε ν} :
    lasting? lifetimes loads now = some answer ↔
      ∃ load, loads.getLast? = some load ∧ load.answer = answer ∧ now < load.expiry lifetimes := by
  rw [lasting?, Option.bind_eq_some_iff]
  refine exists_congr fun load => and_congr_right fun _ => ?_
  split
  · next hover =>
    constructor
    · intro h
      cases h
    · rintro ⟨-, hlasts⟩
      exact absurd hover (Nat.not_le.2 hlasts)
  · next hlasts =>
    rw [Option.some_inj]
    exact ⟨fun h => ⟨h, Nat.not_le.1 hlasts⟩, fun h => h.1⟩

namespace Tells

theorem later (tells : Tells lifetimes past place loads) (later : past ≤ now) :
    Tells lifetimes now place loads := by
  cases tells with
  | absent gone => exact .absent (gone.later later)
  | vacant unanswered gone => exact .vacant unanswered (gone.later later)
  | filled latest gone => exact .filled latest (gone.later later)

/-- What is fresh at a place is what lasts of the loads. -/
theorem fresh?_eq (tells : Tells lifetimes past place loads) (later : past ≤ now) :
    (place.bind fun entry => entry.fresh? now) = lasting? lifetimes loads now := by
  cases tells with
  | absent gone =>
      rw [lasting?_eq_none_of_over (gone.later later)]
      rfl
  | @vacant entry _ unanswered gone =>
      rw [lasting?_eq_none_of_over (gone.later later), Option.bind_some, Entry.fresh?, unanswered,
        ite_self]
  | filled latest gone =>
      rw [lasting?, List.getLast?_concat, Option.bind_some, Option.bind_some, Entry.fresh?]
      by_cases hover : latest.expiry lifetimes ≤ now
      · rw [if_pos hover]
        exact if_pos (decide_eq_true hover)
      · rw [if_neg hover]
        exact if_neg (mt of_decide_eq_true hover)

/-- Where nothing lasts, every load is over, not only the latest. -/
theorem gone (tells : Tells lifetimes past place loads) (later : past ≤ now)
    (none : lasting? lifetimes loads now = none) : Over lifetimes loads now := by
  cases tells with
  | absent gone => exact gone.later later
  | vacant _ gone => exact gone.later later
  | @filled earlier latest gone =>
      rw [lasting?, List.getLast?_concat, Option.bind_some] at none
      intro load hload
      rcases List.mem_append.1 hload with hearlier | hlatest
      · exact gone.later later load hearlier
      · obtain rfl := List.mem_singleton.1 hlatest
        by_contra hlasts
        rw [if_neg hlasts] at none
        cases none

end Tells

end Lasting

/-! ### The ledger of a history -/

namespace Ledger

variable {κ ε ν : Type} [DecidableEq κ]

def empty : Ledger κ ε ν := ⟨fun _ => none, fun _ => []⟩

def enter (ledger : Ledger κ ε ν) (now : Nat) : Event κ ε ν → Ledger κ ε ν
  | .joined id key =>
      { ledger with keyOf := fun other => if other = id then some key else ledger.keyOf other }
  | .loaded id answer =>
      { ledger with
        loads := fun key =>
          if ledger.keyOf id = some key then ledger.loads key ++ [⟨now, answer⟩]
          else ledger.loads key }
  | _ => ledger

def ofHistory (history : List (Nat × Event κ ε ν)) : Ledger κ ε ν :=
  history.foldl (fun ledger (now, event) => ledger.enter now event) empty

theorem ofHistory_concat (history : List (Nat × Event κ ε ν)) (now : Nat) (event : Event κ ε ν) :
    ofHistory (history ++ [(now, event)]) = (ofHistory history).enter now event := by
  rw [ofHistory, List.foldl_append]
  rfl

end Ledger

/-- What the ledger allows to happen next: a call is answered from the latest load for its key while
that lasts, and loads if no load for its key lasts. -/
def Event.IsJustified {κ ε ν : Type} (lifetimes : Lifetimes) (ledger : Ledger κ ε ν) (now : Nat) :
    Event κ ε ν → Prop
  | .answered id answer => ∃ key load, ledger.keyOf id = some key ∧
      (ledger.loads key).getLast? = some load ∧ load.answer = answer ∧
      now < load.expiry lifetimes
  | .began id => ∃ key, ledger.keyOf id = some key ∧
      ∀ load ∈ ledger.loads key, load.expiry lifetimes ≤ now
  | _ => True

namespace Flights

variable {κ ε ν : Type} [DecidableEq κ]

def place? (s : Flights κ ε ν) (key : κ) : Option (Entry ε ν) :=
  (s.index.lookup key).bind fun number => s.entries[number]?

/-- A cache and a ledger agree at an instant. -/
structure Agrees (s : Flights κ ε ν) (ledger : Ledger κ ε ν) (now : Nat) : Prop where
  keys : ∀ c ∈ s.calls, ledger.keyOf c.id = some c.key
  single : (s.index.map Prod.fst).Nodup
  apart : ∀ first ∈ s.index, ∀ second ∈ s.index, first.2 = second.2 → first.1 = second.1
  places : ∀ key, Tells s.lifetimes now (s.place? key) (ledger.loads key)
  /-- While an answer is being loaded for a key, no load for the key lasts. -/
  loading : ∀ c ∈ s.calls, c.stage = .loading → Over s.lifetimes (ledger.loads c.key) now

/-! ### What the operations do to places -/

section Places

variable {s : Flights κ ε ν}

theorem place?_locate (made : ∀ pair ∈ s.index, pair.2 < s.entries.length) (key : κ) (now : Nat)
    (other : κ) : (s.locate key now).2.place? other = s.place? other ∨
      s.place? other = none ∧ (s.locate key now).2.place? other = some (.vacant now) := by
  unfold locate
  split
  · exact .inl rfl
  · simp only [place?, List.lookup_append]
    cases hother : s.index.lookup other with
    | some number =>
        left
        have hmade : number < s.entries.length := made _ (mem_of_lookup_eq_some hother)
        rw [Option.some_or, Option.bind_some, Option.bind_some, List.getElem?_append_left hmade]
    | none =>
        rw [Option.none_or]
        by_cases hkey : other = key
        · right
          subst hkey
          rw [List.lookup_cons_self, Option.bind_some, List.getElem?_concat_length]
          exact ⟨rfl, rfl⟩
        · left
          rw [List.lookup_cons, beq_false_of_ne hkey]
          rfl

theorem single_locate (single : (s.index.map Prod.fst).Nodup) (key : κ) (now : Nat) :
    ((s.locate key now).2.index.map Prod.fst).Nodup := by
  unfold locate
  split
  · exact single
  · next hnone =>
    rw [List.map_append, List.nodup_append]
    refine ⟨single, List.nodup_singleton key, ?_⟩
    rintro first hfirst _ hsecond rfl
    obtain rfl : first = key := List.mem_singleton.1 hsecond
    obtain ⟨pair, hpair, rfl⟩ := List.mem_map.1 hfirst
    rw [(lookup_eq_some_iff_mem single).2 hpair] at hnone
    cases hnone

/-- Locating a key gives no place to a second key: a place that is made is a new one. -/
theorem apart_locate (made : ∀ pair ∈ s.index, pair.2 < s.entries.length)
    (apart : ∀ first ∈ s.index, ∀ second ∈ s.index, first.2 = second.2 → first.1 = second.1)
    (key : κ) (now : Nat) :
    ∀ first ∈ (s.locate key now).2.index, ∀ second ∈ (s.locate key now).2.index,
      first.2 = second.2 → first.1 = second.1 := by
  unfold locate
  split
  · exact apart
  · have hnew : ∀ pair ∈ s.index, pair.2 ≠ s.entries.length :=
      fun pair hpair => Nat.ne_of_lt (made pair hpair)
    intro first hfirst second hsecond hnumber
    rcases List.mem_append.1 hfirst with hfirstOld | hfirstNew
    · rcases List.mem_append.1 hsecond with hsecondOld | hsecondNew
      · exact apart first hfirstOld second hsecondOld hnumber
      · rw [List.mem_singleton.1 hsecondNew] at hnumber
        exact absurd hnumber (hnew first hfirstOld)
    · rw [List.mem_singleton.1 hfirstNew] at hnumber ⊢
      rcases List.mem_append.1 hsecond with hsecondOld | hsecondNew
      · exact absurd hnumber.symm (hnew second hsecondOld)
      · rw [List.mem_singleton.1 hsecondNew]

theorem place?_keep {key : κ} {number : Nat} (found : s.index.lookup key = some number)
    (made : number < s.entries.length) (answer : Except ε ν) (now : Nat) :
    (s.keep number answer now).place? key = some (.filled s.lifetimes answer now) := by
  rw [place?, keep, found, Option.bind_some, List.getElem?_set_self made]

theorem place?_keep_of_ne {key : κ} {number : Nat} (other : s.index.lookup key ≠ some number)
    (answer : Except ε ν) (now : Nat) :
    (s.keep number answer now).place? key = s.place? key := by
  rw [place?, place?, keep]
  refine Option.bind_congr fun found hfound => ?_
  refine List.getElem?_set_ne ?_
  rintro rfl
  exact other hfound

/-- A sweep takes away only places of which nothing is fresh. -/
theorem place?_sweep (single : (s.index.map Prod.fst).Nodup) (key : κ) (now : Nat) :
    (s.sweep now).2.place? key = s.place? key ∨ (s.sweep now).2.place? key = none ∧
      ∀ entry, s.place? key = some entry → entry.isExpired now = true := by
  have hkept : ∀ number, (s.sweep now).2.index.lookup key = some number →
      s.index.lookup key = some number ∧ s.isIdle now number = false := by
    intro number hnumber
    obtain ⟨hmem, hidle⟩ := List.mem_filter.1 (mem_of_lookup_eq_some hnumber)
    exact ⟨(lookup_eq_some_iff_mem single).2 hmem, by simpa using hidle⟩
  cases hswept : (s.sweep now).2.index.lookup key with
  | some number =>
      left
      rw [place?, place?, hswept, (hkept number hswept).1]
      rfl
  | none =>
      right
      refine ⟨by rw [place?, hswept, Option.bind_none], fun entry hplace => ?_⟩
      obtain ⟨number, hnumber, hentry⟩ := Option.bind_eq_some_iff.1 hplace
      cases hidle : s.isIdle now number with
      | false =>
          have hstays : (s.sweep now).2.index.lookup key = some number :=
            lookup_filter hnumber (congrArg not hidle)
          rw [hswept] at hstays
          cases hstays
      | true =>
          rw [isIdle, Bool.and_eq_true, hentry] at hidle
          exact hidle.2

end Places

/-! ### Every step keeps them agreeing -/

namespace Agrees

variable {s : Flights κ ε ν} {ledger : Ledger κ ε ν} {now : Nat}

theorem empty (lifetimes : Lifetimes) :
    (Flights.empty lifetimes : Flights κ ε ν).Agrees Ledger.empty 0 where
  keys := nofun
  single := List.nodup_nil
  apart := nofun
  places _ := .absent nofun
  loading := nofun

theorem later (agrees : s.Agrees ledger now) {time : Nat} (later : now ≤ time) :
    s.Agrees ledger time where
  keys := agrees.keys
  single := agrees.single
  apart := agrees.apart
  places key := (agrees.places key).later later
  loading c hc hstage := (agrees.loading c hc hstage).later later

theorem join (agrees : s.Agrees ledger now) (consistent : s.Consistent) {id : Nat} (key : κ)
    (fresh : ∀ c ∈ s.calls, c.id ≠ id) :
    (s.join id key now).Agrees (ledger.enter now (.joined id key)) now where
  keys := by
    intro c hc
    rw [calls_join] at hc
    rcases List.mem_append.1 hc with hold | hnew
    · exact (if_neg (fresh c hold)).trans (agrees.keys c hold)
    · rw [List.mem_singleton.1 hnew]
      exact if_pos rfl
  single := by
    rw [index_join]
    exact single_locate agrees.single key now
  apart := by
    rw [index_join]
    exact apart_locate consistent.made agrees.apart key now
  places := by
    intro other
    rw [lifetimes_join]
    have htells := agrees.places other
    change Tells s.lifetimes now ((s.locate key now).2.place? other) (ledger.loads other)
    rcases place?_locate consistent.made key now other with hsame | ⟨hnone, hvacant⟩
    · rw [hsame]
      exact htells
    · rw [hvacant]
      rw [hnone] at htells
      cases htells with
      | absent gone => exact .vacant rfl gone
  loading := by
    intro c hc hstage
    rw [lifetimes_join]
    rw [calls_join] at hc
    rcases List.mem_append.1 hc with hold | hnew
    · exact agrees.loading c hold hstage
    · rw [List.mem_singleton.1 hnew] at hstage
      cases hstage

theorem depart (agrees : s.Agrees ledger now) (id : Nat) : (s.depart id).Agrees ledger now where
  keys c hc := agrees.keys c ((s.mem_calls_depart id).1 hc).1
  single := agrees.single
  apart := agrees.apart
  places := agrees.places
  loading c hc := agrees.loading c ((s.mem_calls_depart id).1 hc).1

theorem advance (agrees : s.Agrees ledger now) (consistent : s.Consistent) {c : Call κ}
    (hc : c ∈ s.calls) {stage : Stage}
    (gone : stage = .loading → Over s.lifetimes (ledger.loads c.key) now) :
    (s.advance c.id stage).Agrees ledger now where
  keys := by
    intro d hd
    obtain ⟨old, hold, hid, hkey, -, -⟩ := s.mem_calls_advance c.id hd
    rw [hid, hkey]
    exact agrees.keys old hold
  single := agrees.single
  apart := agrees.apart
  places := agrees.places
  loading := by
    intro d hd hloading
    obtain ⟨old, hold, -, hkey, -, hstage⟩ := s.mem_calls_advance c.id hd
    rw [hkey]
    by_cases hid : old.id = c.id
    · rw [if_pos hid] at hstage
      rw [consistent.eq_of_id hold hc hid]
      exact gone (hstage.symm.trans hloading)
    · rw [if_neg hid] at hstage
      exact agrees.loading old hold (hstage.symm.trans hloading)

/-- The answer that a call has loaded becomes the latest load for its key. -/
theorem load (agrees : s.Agrees ledger now) (consistent : s.Consistent) {c : Call κ}
    (hc : c ∈ s.calls) (loading : c.stage = .loading) (answer : Except ε ν) :
    ((s.keep c.entry answer now).depart c.id).Agrees (ledger.enter now (.loaded c.id answer))
      now := by
  have hown : (ledger.enter now (.loaded c.id answer)).loads c.key =
      ledger.loads c.key ++ [⟨now, answer⟩] := if_pos (agrees.keys c hc)
  have hothers : ∀ key, key ≠ c.key →
      (ledger.enter now (.loaded c.id answer)).loads key = ledger.loads key := by
    intro key hkey
    refine if_neg fun h => hkey ?_
    rw [agrees.keys c hc] at h
    exact (Option.some.inj h).symm
  refine ⟨?_, agrees.single, agrees.apart, ?_, ?_⟩
  · intro d hd
    exact agrees.keys d (((s.keep c.entry answer now).mem_calls_depart c.id).1 hd).1
  · intro key
    change Tells s.lifetimes now ((s.keep c.entry answer now).place? key) _
    have hplaced := consistent.placed c hc
    by_cases hkey : key = c.key
    · subst hkey
      have hmade := consistent.made _ (mem_of_lookup_eq_some hplaced)
      rw [hown, place?_keep hplaced hmade]
      exact .filled ⟨now, answer⟩ (agrees.loading c hc loading)
    · have hother : s.index.lookup key ≠ some c.entry := by
        intro h
        exact hkey (agrees.apart _ (mem_of_lookup_eq_some h) _ (mem_of_lookup_eq_some hplaced) rfl)
      rw [hothers key hkey, place?_keep_of_ne hother]
      exact agrees.places key
  · intro d hd hstage
    obtain ⟨hmem, hid⟩ := ((s.keep c.entry answer now).mem_calls_depart c.id).1 hd
    have hkey : d.key ≠ c.key := by
      intro hkey
      have hentry : some d.entry = some c.entry := by
        rw [← consistent.placed d hmem, ← consistent.placed c hc, hkey]
      exact hid (consistent.alone d hmem c hc (by simp [hstage]) (by simp [loading])
        (Option.some.inj hentry))
    rw [hothers d.key hkey]
    exact agrees.loading d hmem hstage

theorem sweep (agrees : s.Agrees ledger now) : (s.sweep now).2.Agrees ledger now where
  keys := agrees.keys
  single := agrees.single.sublist (List.filter_sublist.map Prod.fst)
  apart first hfirst second hsecond :=
    agrees.apart first (List.mem_of_mem_filter hfirst) second (List.mem_of_mem_filter hsecond)
  places := by
    intro key
    have htells := agrees.places key
    change Tells s.lifetimes now ((s.sweep now).2.place? key) (ledger.loads key)
    rcases place?_sweep agrees.single key now with hsame | ⟨hnone, hexpired⟩
    · rw [hsame]
      exact htells
    · rw [hnone]
      refine .absent (htells.gone (Nat.le_refl now) ?_)
      rw [← htells.fresh?_eq (Nat.le_refl now), Option.bind_eq_none_iff]
      intro entry hentry
      rw [Entry.fresh?, if_pos (hexpired entry hentry)]
  loading := agrees.loading

theorem fresh?_eq (agrees : s.Agrees ledger now) (consistent : s.Consistent) {c : Call κ}
    (hc : c ∈ s.calls) {time : Nat} (later : now ≤ time) :
    (s.entries[c.entry]?.bind fun entry => entry.fresh? time) =
      lasting? s.lifetimes (ledger.loads c.key) time := by
  rw [← (agrees.places c.key).fresh?_eq later, place?, consistent.placed c hc, Option.bind_some]

end Agrees

theorem Step.agrees {past now : Nat} {event : Event κ ε ν} {s t : Flights κ ε ν}
    {ledger : Ledger κ ε ν} (step : Step now event s t) (consistent : s.Consistent)
    (earlier : s.Agrees ledger past) (later : past ≤ now) :
    t.Agrees (ledger.enter now event) now := by
  have agrees := earlier.later later
  cases step with
  | join _ key _ fresh => exact agrees.join consistent key fresh
  | grasp mem => exact agrees.advance consistent mem nofun
  | leave => exact agrees.depart _
  | answer => exact agrees.depart _
  | begin mem _ found stale =>
      refine agrees.advance consistent mem fun _ => ?_
      refine (agrees.places _).gone (Nat.le_refl now) ?_
      rw [← agrees.fresh?_eq consistent mem (Nat.le_refl now), found, Option.bind_some, stale]
  | load answer mem loading => exact agrees.load consistent mem loading answer
  | sweep => exact agrees.sweep

theorem Run.agrees {lifetimes : Lifetimes} {history : List (Nat × Event κ ε ν)} {now : Nat}
    {s : Flights κ ε ν} (run : Run lifetimes history now s) :
    s.Agrees (.ofHistory history) now := by
  induction run with
  | start => exact .empty lifetimes
  | step run later step ih =>
      rw [Ledger.ofHistory_concat]
      exact step.agrees run.consistent ih later

theorem Step.lifetimes_eq {now : Nat} {event : Event κ ε ν} {s t : Flights κ ε ν}
    (step : Step now event s t) : t.lifetimes = s.lifetimes := by
  cases step with
  | join id key => exact s.lifetimes_join id key now
  | grasp | leave | answer | begin | load | sweep => rfl

theorem Run.lifetimes_eq {lifetimes : Lifetimes} {history : List (Nat × Event κ ε ν)} {now : Nat}
    {s : Flights κ ε ν} (run : Run lifetimes history now s) : s.lifetimes = lifetimes := by
  induction run with
  | start => rfl
  | step _ _ step ih => exact step.lifetimes_eq.trans ih

/-- The next step of a cache is one that its ledger allows. -/
theorem Step.isJustified {past now : Nat} {event : Event κ ε ν} {s t : Flights κ ε ν}
    {ledger : Ledger κ ε ν} (step : Step now event s t) (consistent : s.Consistent)
    (agrees : s.Agrees ledger past) (later : past ≤ now) :
    event.IsJustified s.lifetimes ledger now := by
  cases step with
  | @answer _ c entry answer mem _ found kept =>
      have hlasting := agrees.fresh?_eq consistent mem later
      rw [found, Option.bind_some, kept] at hlasting
      obtain ⟨load, hlatest, hanswer, hlasts⟩ := lasting?_eq_some_iff.1 hlasting.symm
      exact ⟨c.key, load, agrees.keys c mem, hlatest, hanswer, hlasts⟩
  | @begin _ c entry mem _ found stale =>
      have hlasting := agrees.fresh?_eq consistent mem later
      rw [found, Option.bind_some, stale] at hlasting
      exact ⟨c.key, agrees.keys c mem, (agrees.places c.key).gone later hlasting.symm⟩
  | join | grasp | leave | load | sweep => trivial

theorem call?_of_mem {s : Flights κ ε ν} (consistent : s.Consistent) {c : Call κ}
    (hc : c ∈ s.calls) : s.call? c.id = some c := by
  cases h : s.call? c.id with
  | none =>
      have hnone := List.find?_eq_none.1 h c hc
      exact absurd (beq_self_eq_true c.id) hnone
  | some d =>
      have hid : d.id = c.id := by simpa using List.find?_some h
      rw [consistent.eq_of_id (List.mem_of_find?_eq_some h) hc hid]

theorem Agrees.consult_eq {s : Flights κ ε ν} {ledger : Ledger κ ε ν} {now : Nat}
    (agrees : s.Agrees ledger now) (consistent : s.Consistent) {c : Call κ} (hc : c ∈ s.calls)
    {time : Nat} (later : now ≤ time) :
    (s.consult c.id time).1 = lasting? s.lifetimes (ledger.loads c.key) time := by
  rw [← agrees.fresh?_eq consistent hc later, consult, call?_of_mem consistent hc, Option.bind_some]
  split
  · next h => exact h.symm
  · next h => exact h.symm

/-- However calls, loaders and sweeps interleave, a call that is answered without loading gets the
latest load for its key, which lasts, and a call loads only if no load for its key lasts when it
gets its entry and looks at it.  So a call that looks finds what the ledger of the history has. -/
theorem Run.answers_justified {lifetimes : Lifetimes} {history : List (Nat × Event κ ε ν)}
    {now : Nat} {s : Flights κ ε ν} (run : Run lifetimes history now s) :
    (∀ before time event after, history = before ++ (time, event) :: after →
      event.IsJustified lifetimes (.ofHistory before) time) ∧
    ∀ c ∈ s.calls, ∀ time, now ≤ time → (s.consult c.id time).1 =
      lasting? lifetimes ((Ledger.ofHistory history).loads c.key) time := by
  constructor
  · induction run with
    | start =>
        intro before time event after h
        cases before <;> cases h
    | @step history past now event s t run later step ih =>
        intro before time other after h
        rcases List.eq_nil_or_concat after with rfl | ⟨between, last, rfl⟩
        · obtain ⟨rfl, hlast⟩ := List.append_inj' h rfl
          cases hlast
          rw [← run.lifetimes_eq]
          exact step.isJustified run.consistent run.agrees later
        · rw [List.concat_eq_append, ← List.cons_append, ← List.append_assoc] at h
          obtain ⟨hbefore, -⟩ := List.append_inj' h rfl
          exact ih before time other between hbefore
  · intro c hc time later
    rw [run.agrees.consult_eq run.consistent hc later, run.lifetimes_eq]

/-- A second call is answered from the load of the first; when that is over and its entry swept, a
third call loads. -/
theorem Run.answers_justified_around_sweep :
    ∃ (history : List (Nat × Event String String Nat)) (s : Flights String String Nat),
      Run ⟨300, 60⟩ history 320 s ∧ (50, .answered 1 (.ok 7)) ∈ history ∧
      (320, .began 2) ∈ history ∧
      (∀ before time event after, history = before ++ (time, event) :: after →
        event.IsJustified ⟨300, 60⟩ (.ofHistory before) time) ∧
      ∀ c ∈ s.calls, ∀ time, 320 ≤ time → (s.consult c.id time).1 =
        lasting? ⟨300, 60⟩ ((Ledger.ofHistory history).loads c.key) time := by
  have begun : Run ⟨300, 60⟩ [] 0 (.empty ⟨300, 60⟩ : Flights String String Nat) := .start
  have joined := begun.step (Nat.le_refl 0) (.join 0 "key" rfl nofun)
  have grasped := joined.step (Nat.le_refl 0)
    (.grasp (c := ⟨0, "key", 0, .waiting⟩) (by decide) rfl (by decide))
  have began := grasped.step (Nat.le_refl 0)
    (.begin (c := ⟨0, "key", 0, .holding⟩) (by decide) rfl rfl rfl)
  have loaded := began.step (Nat.zero_le 10)
    (.load (c := ⟨0, "key", 0, .loading⟩) (.ok 7) (by decide) rfl)
  have joinedNext := loaded.step (by decide : 10 ≤ 50) (.join 1 "key" rfl nofun)
  have graspedNext := joinedNext.step (Nat.le_refl 50)
    (.grasp (c := ⟨1, "key", 0, .waiting⟩) (by decide) rfl (by decide))
  have answered := graspedNext.step (Nat.le_refl 50)
    (.answer (c := ⟨1, "key", 0, .holding⟩) (by decide) rfl rfl rfl)
  have swept := answered.step (by decide : 50 ≤ 320) .sweep
  have joinedLast := swept.step (Nat.le_refl 320) (.join 2 "key" rfl nofun)
  have graspedLast := joinedLast.step (Nat.le_refl 320)
    (.grasp (c := ⟨2, "key", 1, .waiting⟩) (by decide) rfl (by decide))
  have beganLast := graspedLast.step (Nat.le_refl 320)
    (.begin (c := ⟨2, "key", 1, .holding⟩) (by decide) rfl rfl rfl)
  exact ⟨_, _, beganLast, by simp, by simp, beganLast.answers_justified⟩

end Flights

end ManifestRelay.Cache
