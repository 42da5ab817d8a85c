import ManifestRelay.Proofs.Cache.Line

/-!
# Calls that give up

A call gives up when it is cancelled before it has loaded, when its caller is gone, or when
its loader breaks down.  Nothing that is kept changes then: the call leaves its line, and
the others close up.  The next in line, if the first has left, looks at what the entry has
kept all the time.
-/

namespace ManifestRelay.Cache

/-- Why a call ends without an answer. -/
inductive Withdrawal where
  | cancelled
  | dropped
  | brokeDown
deriving DecidableEq, Repr

/-- Whether a call can end in such a way at a stage.  Once it loads, a call does not notice any
more that it is cancelled. -/
def Withdrawal.isOpenTo : Withdrawal → Stage → Bool
  | .cancelled, stage => stage != .loading
  | .dropped, _ => true
  | .brokeDown, stage => stage == .loading

theorem Withdrawal.isOpenTo_dropped (stage : Stage) : Withdrawal.dropped.isOpenTo stage = true := rfl

inductive Deed (κ ε ν : Type) where
  | came (id : Nat) (key : κ)
  | withdrew (id : Nat) (how : Withdrawal)
  /-- A call has its entry and looks at it.  If it finds nothing, it calls its loader. -/
  | looked (id : Nat) (found : Option (Except ε ν))
  | stored (id : Nat) (answer : Except ε ν)
  | swept
deriving Repr

namespace Deed

variable {κ ε ν : Type}

def newcomer? : Deed κ ε ν → Option Nat
  | came id _ => some id
  | _ => none

end Deed

namespace Flights

variable {κ ε ν : Type}

def arrivals (history : List (Deed κ ε ν)) : List Nat := history.filterMap Deed.newcomer?

theorem arrivals_concat (history : List (Deed κ ε ν)) (deed : Deed κ ε ν) :
    arrivals (history ++ [deed]) = arrivals history ++ deed.newcomer?.toList := by
  rw [arrivals, List.filterMap_append]
  cases h : deed.newcomer? <;> simp [arrivals, h]

section States

variable [DecidableEq κ]

/-- The states that a cache can come to, each with what was done, the last thing last, and the
time.  No two calls have one number. -/
inductive Attended (lifetimes : Lifetimes) :
    List (Deed κ ε ν) → Nat → Flights κ ε ν → Prop where
  | start : Attended lifetimes [] 0 (.empty lifetimes)
  | wait {history : List (Deed κ ε ν)} {past now : Nat} {s : Flights κ ε ν}
      (attended : Attended lifetimes history past s) (later : past ≤ now) :
      Attended lifetimes history now s
  | come {history : List (Deed κ ε ν)} {now id : Nat} {s : Flights κ ε ν}
      (attended : Attended lifetimes history now s) (enabled : lifetimes.isEnabled = true)
      (fresh : id ∉ arrivals history) (key : κ) :
      Attended lifetimes (history ++ [.came id key]) now (s.arrive id key now)
  | withdraw {history : List (Deed κ ε ν)} {now : Nat} {s : Flights κ ε ν} {c : Call κ}
      (attended : Attended lifetimes history now s) (mem : c ∈ s.calls) {how : Withdrawal}
      (permitted : how.isOpenTo c.stage = true) :
      Attended lifetimes (history ++ [.withdrew c.id how]) now (s.leave c.id)
  | consult {history : List (Deed κ ε ν)} {now : Nat} {s : Flights κ ε ν} {c : Call κ}
      (attended : Attended lifetimes history now s) (mem : c ∈ s.calls)
      (holding : c.stage = .holding) :
      Attended lifetimes (history ++ [.looked c.id (s.consult c.id now).1]) now
        (s.consult c.id now).2
  | store {history : List (Deed κ ε ν)} {now : Nat} {s : Flights κ ε ν} {c : Call κ}
      (attended : Attended lifetimes history now s) (mem : c ∈ s.calls)
      (loading : c.stage = .loading) (answer : Except ε ν) :
      Attended lifetimes (history ++ [.stored c.id answer]) now (s.store c.id answer now)
  | sweep {history : List (Deed κ ε ν)} {now : Nat} {s : Flights κ ε ν}
      (attended : Attended lifetimes history now s) :
      Attended lifetimes (history ++ [.swept]) now (s.sweep now).2

end States

/-! ### What a history tells of the calls in flight -/

/-- Of the calls in flight some have left, and none of those that load has gone back. -/
structure Leads (s t : Flights κ ε ν) : Prop where
  ids : (t.calls.map Call.id).Sublist (s.calls.map Call.id)
  loading : ∀ d ∈ t.calls, ∃ c ∈ s.calls, c.id = d.id ∧ (c.stage = .loading → d.stage = .loading)

namespace Leads

variable {s t u : Flights κ ε ν}

theorem of_calls_eq (same : t.calls = s.calls) : Leads s t where
  ids := by rw [same]
  loading d hd := ⟨d, same ▸ hd, rfl, id⟩

theorem trans (first : Leads s t) (second : Leads t u) : Leads s u where
  ids := second.ids.trans first.ids
  loading d hd := by
    obtain ⟨c, hc, hid, hstage⟩ := second.loading d hd
    obtain ⟨b, hb, hbid, hbstage⟩ := first.loading c hc
    exact ⟨b, hb, hbid.trans hid, fun h => hstage (hbstage h)⟩

theorem depart (s : Flights κ ε ν) (id : Nat) : Leads s (s.depart id) where
  ids := List.filter_sublist.map Call.id
  loading d hd := ⟨d, ((s.mem_calls_depart id).1 hd).1, rfl, fun h => h⟩

theorem handOver (s : Flights κ ε ν) (entry : Nat) : Leads s (s.handOver entry) := by
  rw [Flights.handOver]
  split
  · exact of_calls_eq rfl
  · refine ⟨by rw [ids_promoteFirst], fun d hd => ?_⟩
    rcases mem_promoteFirst hd with hsame | ⟨c, hc, hstage, rfl⟩
    · exact ⟨d, hsame, rfl, id⟩
    · refine ⟨c, hc, rfl, fun hloading => ?_⟩
      rw [hstage] at hloading
      cases hloading

theorem leave (s : Flights κ ε ν) (id : Nat) : Leads s (s.leave id) := by
  rw [Flights.leave]
  split
  · exact (depart s id).trans (handOver _ _)
  · exact of_calls_eq rfl

theorem advance (s : Flights κ ε ν) (id : Nat) : Leads s (s.advance id .loading) where
  ids := by rw [ids_advance]
  loading d hd := by
    obtain ⟨c, hc, hid, -, -, hstage⟩ := s.mem_calls_advance id hd
    refine ⟨c, hc, hid.symm, fun hloading => ?_⟩
    rw [hstage, hloading, ite_self]

theorem consult (s : Flights κ ε ν) (id now : Nat) : Leads s (s.consult id now).2 := by
  rw [Flights.consult]
  split
  · exact leave s id
  · exact advance s id

theorem keep (s : Flights κ ε ν) (entry : Nat) (answer : Except ε ν) (now : Nat) :
    Leads s (s.keep entry answer now) :=
  of_calls_eq rfl

theorem store (s : Flights κ ε ν) (id : Nat) (answer : Except ε ν) (now : Nat) :
    Leads s (s.store id answer now) := by
  rw [Flights.store]
  split
  · exact (keep s _ answer now).trans (leave _ id)
  · exact of_calls_eq rfl

end Leads

structure Recorded (history : List (Deed κ ε ν)) (s : Flights κ ε ν) : Prop where
  distinct : (arrivals history).Nodup
  inOrder : (s.calls.map Call.id).Sublist (arrivals history)
  withdrawn : ∀ id how, .withdrew id how ∈ history →
    id ∈ arrivals history ∧ ∀ c ∈ s.calls, c.id ≠ id
  /-- A call that has called its loader loads as long as it is in flight. -/
  loading : ∀ id, .looked id none ∈ history →
    id ∈ arrivals history ∧ ∀ c ∈ s.calls, c.id = id → c.stage = .loading
  /-- A call that was cancelled has not called its loader. -/
  cancelled : ∀ id, .withdrew id .cancelled ∈ history → .looked id none ∉ history

namespace Recorded

variable {history : List (Deed κ ε ν)} {s t : Flights κ ε ν}

theorem empty (lifetimes : Lifetimes) : Recorded [] (.empty lifetimes : Flights κ ε ν) where
  distinct := List.nodup_nil
  inOrder := .slnil
  withdrawn _ _ h := absurd h List.not_mem_nil
  loading _ h := absurd h List.not_mem_nil
  cancelled _ _ := List.not_mem_nil

theorem ne_of_not_mem (recorded : Recorded history s) {id : Nat} (fresh : id ∉ arrivals history) :
    ∀ c ∈ s.calls, c.id ≠ id := by
  rintro c hc rfl
  exact fresh (recorded.inOrder.subset (List.mem_map_of_mem hc))

theorem mem_arrivals (recorded : Recorded history s) {c : Call κ} (hc : c ∈ s.calls) :
    c.id ∈ arrivals history :=
  recorded.inOrder.subset (List.mem_map_of_mem hc)

theorem concat (recorded : Recorded history s) (leads : Leads s t) {deed : Deed κ ε ν}
    (nobody : deed.newcomer? = none)
    (withdrawn : ∀ id how, deed = .withdrew id how → (∃ c ∈ s.calls, c.id = id ∧
      how.isOpenTo c.stage = true) ∧ ∀ d ∈ t.calls, d.id ≠ id)
    (loading : ∀ id, deed = .looked id none → (∃ c ∈ s.calls, c.id = id) ∧
      ∀ d ∈ t.calls, d.id = id → d.stage = .loading) : Recorded (history ++ [deed]) t := by
  have hsame : arrivals (history ++ [deed]) = arrivals history := by
    rw [arrivals_concat, nobody]
    exact List.append_nil _
  refine ⟨?_, ?_, ?_, ?_, ?_⟩
  · rw [hsame]
    exact recorded.distinct
  · rw [hsame]
    exact leads.ids.trans recorded.inOrder
  · intro id how hmem
    rw [hsame]
    rcases List.mem_append.1 hmem with hold | hnew
    · obtain ⟨hcame, hgone⟩ := recorded.withdrawn id how hold
      refine ⟨hcame, fun d hd hid => ?_⟩
      obtain ⟨c, hc, hcid, -⟩ := leads.loading d hd
      exact hgone c hc (hcid.trans hid)
    · obtain ⟨⟨c, hc, rfl, -⟩, hgone⟩ := withdrawn id how (List.mem_singleton.1 hnew).symm
      exact ⟨recorded.mem_arrivals hc, hgone⟩
  · intro id hmem
    rw [hsame]
    rcases List.mem_append.1 hmem with hold | hnew
    · obtain ⟨hcame, hloading⟩ := recorded.loading id hold
      refine ⟨hcame, fun d hd hid => ?_⟩
      obtain ⟨c, hc, hcid, hstage⟩ := leads.loading d hd
      exact hstage (hloading c hc (hcid.trans hid))
    · obtain ⟨⟨c, hc, rfl⟩, hloading⟩ := loading id (List.mem_singleton.1 hnew).symm
      exact ⟨recorded.mem_arrivals hc, hloading⟩
  · intro id hcancelled hlooked
    rcases List.mem_append.1 hcancelled with hcancelledOld | hcancelledNew
    · rcases List.mem_append.1 hlooked with hlookedOld | hlookedNew
      · exact recorded.cancelled id hcancelledOld hlookedOld
      · -- A call that looks is in flight, so it was not cancelled before.
        obtain ⟨⟨c, hc, hid⟩, -⟩ := loading id (List.mem_singleton.1 hlookedNew).symm
        exact (recorded.withdrawn id _ hcancelledOld).2 c hc hid
    · obtain ⟨⟨c, hc, hid, hopen⟩, -⟩ := withdrawn id _ (List.mem_singleton.1 hcancelledNew).symm
      rcases List.mem_append.1 hlooked with hlookedOld | hlookedNew
      · -- A call that loads does not notice that it is cancelled.
        rw [(recorded.loading id hlookedOld).2 c hc hid] at hopen
        cases hopen
      · rw [← List.mem_singleton.1 hcancelledNew] at hlookedNew
        cases List.mem_singleton.1 hlookedNew

variable [DecidableEq κ]

theorem come (recorded : Recorded history s) {id : Nat} (fresh : id ∉ arrivals history) (key : κ)
    (now : Nat) : Recorded (history ++ [.came id key]) (s.arrive id key now) := by
  have harrivals : arrivals (history ++ [.came id key]) = arrivals history ++ [id] :=
    arrivals_concat history (.came id key)
  have hjoined := Leads.handOver (s.join id key now) (s.locate key now).1
  have hold : ∀ deed ∈ history ++ [.came id key], deed.newcomer? = none → deed ∈ history := by
    intro deed hdeed nobody
    rcases List.mem_append.1 hdeed with hold | hnew
    · exact hold
    · rw [List.mem_singleton.1 hnew] at nobody
      cases nobody
  have hcalls : ∀ d ∈ (s.arrive id key now).calls, d.id = id ∨
      ∃ c ∈ s.calls, c.id = d.id ∧ (c.stage = .loading → d.stage = .loading) := by
    intro d hd
    obtain ⟨c, hc, hid, hstage⟩ := hjoined.loading d hd
    rw [calls_join] at hc
    rcases List.mem_append.1 hc with hmem | hnew
    · exact .inr ⟨c, hmem, hid, hstage⟩
    · rw [List.mem_singleton.1 hnew] at hid
      exact .inl hid.symm
  refine ⟨?_, ?_, ?_, ?_, ?_⟩
  · rw [harrivals]
    exact recorded.distinct.append (List.nodup_singleton id) (by simpa using fresh)
  · have hids := hjoined.ids
    rw [calls_join, List.map_append] at hids
    rw [harrivals]
    exact hids.trans (recorded.inOrder.append (List.Sublist.refl [id]))
  · intro other how hmem
    obtain ⟨hcame, hgone⟩ := recorded.withdrawn other how (hold _ hmem rfl)
    rw [harrivals]
    refine ⟨List.mem_append_left _ hcame, fun d hd hid => ?_⟩
    rcases hcalls d hd with hnew | ⟨c, hc, hcid, -⟩
    · exact fresh (hnew ▸ hid ▸ hcame)
    · exact hgone c hc (hcid.trans hid)
  · intro other hmem
    obtain ⟨hcame, hloading⟩ := recorded.loading other (hold _ hmem rfl)
    rw [harrivals]
    refine ⟨List.mem_append_left _ hcame, fun d hd hid => ?_⟩
    rcases hcalls d hd with hnew | ⟨c, hc, hcid, hstage⟩
    · exact absurd (hnew ▸ hid ▸ hcame) fresh
    · exact hstage (hloading c hc (hcid.trans hid))
  · intro other hcancelled hlooked
    exact recorded.cancelled other (hold _ hcancelled rfl) (hold _ hlooked rfl)

theorem not_mem_leave {c : Call κ} (consistent : s.Consistent) (hc : c ∈ s.calls) :
    ∀ d ∈ (s.leave c.id).calls, d.id ≠ c.id := by
  intro d hd
  rw [leave_eq (call?_of_mem consistent hc)] at hd
  obtain ⟨e, he, hid, -⟩ := (Leads.handOver (s.depart c.id) c.entry).loading d hd
  rw [← hid]
  exact ((s.mem_calls_depart c.id).1 he).2

theorem withdraw (recorded : Recorded history s) (consistent : s.Consistent) {c : Call κ}
    (hc : c ∈ s.calls) {how : Withdrawal} (permitted : how.isOpenTo c.stage = true) :
    Recorded (history ++ [.withdrew c.id how]) (s.leave c.id) := by
  refine recorded.concat (.leave s c.id) rfl ?_ fun _ h => by cases h
  intro id other hdeed
  cases hdeed
  exact ⟨⟨c, hc, rfl, permitted⟩, not_mem_leave consistent hc⟩

theorem consult (recorded : Recorded history s) (ordered : s.Ordered) {c : Call κ}
    (hc : c ∈ s.calls) (now : Nat) :
    Recorded (history ++ [.looked c.id (s.consult c.id now).1]) (s.consult c.id now).2 := by
  refine recorded.concat (.consult s c.id now) rfl (fun _ _ h => by cases h) ?_
  intro id hdeed
  obtain ⟨rfl, hnone⟩ := Deed.looked.inj hdeed
  refine ⟨⟨c, hc, rfl⟩, ?_⟩
  rw [ordered.consult_eq hc] at hnone ⊢
  cases hfresh : s.freshFor? c.key now with
  | some answer =>
      rw [hfresh] at hnone
      cases hnone
  | none =>
      intro d hd hid
      obtain ⟨e, -, heid, -, -, hstage⟩ := s.mem_calls_advance c.id hd
      rw [hstage, if_pos (heid.symm.trans hid)]

end Recorded

section Attended

variable [DecidableEq κ] {lifetimes : Lifetimes} {history : List (Deed κ ε ν)} {now : Nat}
  {s : Flights κ ε ν}

theorem Operated.consistent_and_apart (operated : Operated lifetimes now s) : s.Consistent ∧
    ∀ first ∈ s.index, ∀ second ∈ s.index, first.2 = second.2 → first.1 = second.1 := by
  obtain ⟨events, last, -, came⟩ := operated.run
  exact ⟨came.consistent, came.agrees.apart⟩

theorem Operated.lifetimes_eq (operated : Operated lifetimes now s) : s.lifetimes = lifetimes := by
  obtain ⟨events, last, -, came⟩ := operated.run
  exact came.lifetimes_eq

/-- What calls in flight and a history of a cache have in common, and how calls stand in line. -/
structure IsKept (lifetimes : Lifetimes) (history : List (Deed κ ε ν)) (now : Nat)
    (s : Flights κ ε ν) : Prop where
  operated : Operated lifetimes now s
  recorded : Recorded history s
  lined : ∀ key, IsLine (s.line key)

theorem IsKept.ordered (kept : IsKept lifetimes history now s) : s.Ordered where
  consistent := kept.operated.consistent_and_apart.1
  apart := kept.operated.consistent_and_apart.2
  lined := kept.lined

theorem IsKept.come (kept : IsKept lifetimes history now s) (enabled : lifetimes.isEnabled = true)
    {id : Nat} (fresh : id ∉ arrivals history) (key : κ) :
    IsKept lifetimes (history ++ [.came id key]) now (s.arrive id key now) := by
  have hfresh := kept.recorded.ne_of_not_mem fresh
  have henabled : s.lifetimes.isEnabled = true := by rwa [kept.operated.lifetimes_eq]
  exact ⟨kept.operated.arrive henabled hfresh key, kept.recorded.come fresh key now,
    kept.ordered.lined_arrive hfresh key now⟩

theorem IsKept.withdraw (kept : IsKept lifetimes history now s) {c : Call κ} (hc : c ∈ s.calls)
    {how : Withdrawal} (permitted : how.isOpenTo c.stage = true) :
    IsKept lifetimes (history ++ [.withdrew c.id how]) now (s.leave c.id) where
  operated := kept.operated.leave c.id
  recorded := kept.recorded.withdraw kept.ordered.consistent hc permitted
  lined := kept.ordered.lined_leave hc

theorem Attended.isKept (attended : Attended lifetimes history now s) :
    IsKept lifetimes history now s := by
  induction attended with
  | start => exact ⟨.start, .empty lifetimes, fun _ => trivial⟩
  | wait _ later ih => exact ⟨ih.operated.wait later, ih.recorded, ih.lined⟩
  | come _ enabled fresh key ih => exact ih.come enabled fresh key
  | withdraw _ mem permitted ih => exact ih.withdraw mem permitted
  | @consult _ now s c _ mem holding ih =>
      have hcall := call?_of_mem ih.ordered.consistent mem
      refine ⟨ih.operated.consult hcall holding, ih.recorded.consult ih.ordered mem now, ?_⟩
      rw [ih.ordered.consult_eq mem]
      cases s.freshFor? c.key now with
      | some answer => exact ih.ordered.lined_leave mem
      | none => exact ih.ordered.lined_advance mem holding
  | @store _ now s c _ mem loading answer ih =>
      have hcall := call?_of_mem ih.ordered.consistent mem
      refine ⟨ih.operated.store hcall loading answer,
        ih.recorded.concat (.store s c.id answer now) rfl ?_ ?_, ?_⟩
      · intro _ _ h
        cases h
      · intro _ h
        cases h
      · rw [Flights.store, hcall]
        exact (ih.ordered.keep c.entry answer now).lined_leave mem
  | @sweep history now s _ ih =>
      have nobody : (Deed.swept : Deed κ ε ν).newcomer? = none := rfl
      have hleads : Leads s (s.sweep now).2 := .of_calls_eq rfl
      refine ⟨ih.operated.sweep, ih.recorded.concat hleads nobody ?_ ?_, ih.lined⟩
      · intro _ _ h
        cases h
      · intro _ h
        cases h

/-! ### Giving up -/

/-- A call has left one state for another, and nothing else has changed. -/
structure GivesWay (s t : Flights κ ε ν) (c : Call κ) : Prop where
  /-- Every key has what it had: the same answer until the same instant, or none. -/
  kept (key : κ) : t.place? key = s.place? key
  gone : ∀ d ∈ t.calls, d.id ≠ c.id
  others {key : κ} (other : key ≠ c.key) : t.line key = s.line key
  /-- A call that waited leaves the holder and the order of those that wait as they were. -/
  waiter (waiting : c.stage = .waiting) : ∃ holder before after, holder.stage ≠ .waiting ∧
    s.line c.key = holder :: (before ++ c :: after) ∧
    t.line c.key = holder :: (before ++ after)
  /-- A call that did not wait was the first in line, and the next holds the entry now. -/
  holder (holding : c.stage ≠ .waiting) : ∃ rest, (∀ d ∈ rest, d.stage = .waiting) ∧
    s.line c.key = c :: rest ∧ t.line c.key = promoted rest
  free (alone : s.line c.key = [c]) : t.isInUse c.entry = false
  /-- The call that holds the entry now leaves with the answer that is fresh, or loads. -/
  next {d : Call κ} (first : d ∈ t.calls) (holding : d.stage = .holding) (time : Nat) :
    t.consult d.id time = t.takeTurn d.id (s.freshFor? d.key time)

/-- A call that arrives cancelled is turned away, and nothing that is kept or in flight changes. -/
structure TurnsAway (s : Flights κ ε ν) (id : Nat) (key : κ) (now : Nat) : Prop where
  cancelled : (s.receive id key true now).1 = .cancelled
  line (other : κ) : (s.receive id key true now).2.line other = s.line other
  /-- At most a place without an answer is made. -/
  kept (other : κ) : (s.receive id key true now).2.place? other = s.place? other ∨
    s.place? other = none ∧ (s.receive id key true now).2.place? other = some (.vacant now)

namespace IsKept

variable (kept : IsKept lifetimes history now s)

include kept

theorem givesWay {c : Call κ} (hc : c ∈ s.calls) : GivesWay s (s.leave c.id) c where
  kept := place?_leave s c.id
  gone := Recorded.not_mem_leave kept.ordered.consistent hc
  others other := by rw [kept.ordered.line_leave hc, if_neg other]
  waiter waiting := by
    obtain ⟨holder, before, after, hline, hholder⟩ := kept.ordered.line_of_waiting hc waiting
    refine ⟨holder, before, after, hholder, hline, ?_⟩
    have hothers : (s.line c.key).filter (·.id != c.id) = holder :: before ++ after :=
      kept.ordered.filter_line hline
    rw [kept.ordered.line_leave hc, if_pos rfl, hothers, List.cons_append, lead, if_neg hholder]
  holder holding := by
    obtain ⟨rest, hline, hrest⟩ := kept.ordered.line_of_not_waiting hc holding
    refine ⟨rest, hrest, hline, ?_⟩
    have hothers : (s.line c.key).filter (·.id != c.id) = [] ++ rest :=
      kept.ordered.filter_line hline
    rw [kept.ordered.line_leave hc, if_pos rfl, hothers, List.nil_append, lead_eq_promoted hrest]
  free alone := by
    have hnobody : (s.leave c.id).line c.key = [] := by
      have hothers : (s.line c.key).filter (·.id != c.id) = [] ++ [] :=
        kept.ordered.filter_line alone
      rw [kept.ordered.line_leave hc, if_pos rfl, hothers]
      rfl
    have ordered := (kept.withdraw hc (Withdrawal.isOpenTo_dropped c.stage)).ordered
    have hplaced : (s.leave c.id).index.lookup c.key = some c.entry := by
      rw [index_leave]
      exact kept.ordered.consistent.placed c hc
    rw [isInUse, List.any_eq_false]
    intro d hd hentry
    have hkey := (entry_eq_iff_key ordered.consistent ordered.apart hplaced hd).1 (eq_of_beq hentry)
    have hmem : d ∈ (s.leave c.id).line c.key := mem_line.2 ⟨hd, hkey⟩
    rw [hnobody] at hmem
    cases hmem
  next {d} first holding time := by
    have hfresh : (s.leave c.id).freshFor? d.key time = s.freshFor? d.key time := by
      rw [freshFor?, freshFor?, place?_leave]
    rw [(kept.withdraw hc (Withdrawal.isOpenTo_dropped c.stage)).ordered.consult_eq first, hfresh]

theorem turnsAway (enabled : lifetimes.isEnabled = true) {id : Nat} (fresh : id ∉ arrivals history)
    (key : κ) : TurnsAway s id key now := by
  have henabled : s.lifetimes.isEnabled = true := by rwa [kept.operated.lifetimes_eq]
  have hreceive : s.receive id key true now = (.cancelled, (s.arrive id key now).leave id) := by
    rw [receive, henabled]
    rfl
  have hcame := (kept.come enabled fresh key).ordered
  have hfresh := kept.recorded.ne_of_not_mem fresh
  obtain ⟨stage, hlead⟩ := lead_concat (kept.lined key) ⟨id, key, (s.locate key now).1, .waiting⟩
  have harrived : (s.arrive id key now).line key =
      s.line key ++ [⟨id, key, (s.locate key now).1, stage⟩] := by
    rw [kept.ordered.line_arrive hfresh, if_pos rfl, hlead]
  have hmem : ⟨id, key, (s.locate key now).1, stage⟩ ∈ (s.arrive id key now).calls :=
    (mem_line.1 (by rw [harrived]; exact List.mem_append_right _ List.mem_cons_self)).1
  refine ⟨by rw [hreceive], fun other => ?_, fun other => ?_⟩
  · rw [hreceive]
    have hleft := hcame.line_leave hmem other
    have hothers := hcame.filter_line (c := ⟨id, key, (s.locate key now).1, stage⟩) harrived
    dsimp only at hleft hothers ⊢
    rw [hleft, hothers, List.append_nil, lead_of_isLine (kept.lined key)]
    split
    · next hother => rw [hother]
    · next hother => rw [kept.ordered.line_arrive hfresh, if_neg hother]
  · rw [hreceive]
    dsimp only
    rw [place?_leave, arrive, place?_handOver]
    exact place?_locate kept.ordered.consistent.made key now other

end IsKept

/-- Giving up never disturbs an entry.  A call that ends without an answer, at whatever stage,
changes nothing that is kept; it leaves its line, the others close up, and the next of them finds
what is still fresh or loads.  A call that was cancelled has not called its loader. -/
theorem giving_up_disturbs_nothing (attended : Attended lifetimes history now s)
    (enabled : lifetimes.isEnabled = true) :
    (∀ c ∈ s.calls, GivesWay s (s.leave c.id) c) ∧
      (∀ id key, id ∉ arrivals history → TurnsAway s id key now) ∧
      ((arrivals history).Nodup ∧
        ∀ key, IsLine (s.line key) ∧ ((s.line key).map Call.id).Sublist (arrivals history)) ∧
      ∀ id, .withdrew id .cancelled ∈ history → .looked id none ∉ history := by
  have kept := attended.isKept
  have inOrder : ∀ key, ((s.line key).map Call.id).Sublist (arrivals history) := fun key =>
    (List.filter_sublist.map Call.id).trans kept.recorded.inOrder
  refine ⟨?_, ?_, ⟨kept.recorded.distinct, fun key => ?_⟩, kept.recorded.cancelled⟩
  · exact fun c hc => kept.givesWay hc
  · exact fun id key fresh => kept.turnsAway enabled fresh key
  · exact ⟨kept.lined key, inOrder key⟩

end Attended

/-- Two calls wait while a third loads; when its loader breaks down, the first of them holds the
entry and the other waits. -/
theorem giving_up_lets_next_hold :
    ∃ (history : List (Deed String String Nat)) (s : Flights String String Nat),
      Attended ⟨300, 60⟩ history 0 s ∧ Lifetimes.isEnabled ⟨300, 60⟩ = true ∧
      s.line "key" = [⟨0, "key", 0, .loading⟩, ⟨1, "key", 0, .waiting⟩, ⟨2, "key", 0, .waiting⟩] ∧
      (s.leave 0).line "key" = [⟨1, "key", 0, .holding⟩, ⟨2, "key", 0, .waiting⟩] ∧
      GivesWay s (s.leave 0) ⟨0, "key", 0, .loading⟩ ∧ TurnsAway s 3 "key" 0 ∧
      ∀ id, .withdrew id .cancelled ∈ history → .looked id none ∉ history := by
  have begun : Attended ⟨300, 60⟩ ([] : List (Deed String String Nat)) 0 (.empty ⟨300, 60⟩) := .start
  have first : Attended _ _ 0 (Flights.arrive _ 0 _ 0) := begun.come rfl (by decide) "key"
  have loads := first.consult (c := ⟨0, "key", 0, .holding⟩) (by decide) rfl
  have second : Attended _ _ 0 (Flights.arrive _ 1 _ 0) := loads.come rfl (by decide) "key"
  have third : Attended _ _ 0 (Flights.arrive _ 2 _ 0) := second.come rfl (by decide) "key"
  obtain ⟨gives, turns, -, cancelled⟩ := giving_up_disturbs_nothing third rfl
  refine ⟨_, _, third, rfl, by decide, by decide, ?_, ?_, cancelled⟩
  · exact gives ⟨0, "key", 0, .loading⟩ (by decide)
  · exact turns 3 "key" (by decide)

end Flights

end ManifestRelay.Cache
