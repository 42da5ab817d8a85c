import ManifestRelay.Proofs.Cache.SingleFlight

/-!
# Operations as interleavings

Every operation of a cache is a sequence of steps: after a call has joined or
left, the entry that it took part in may be handed over.  So the states that
operations lead to are states of interleavings.
-/

namespace ManifestRelay.Cache.Flights

variable {κ ε ν : Type}

theorem promoteFirst_eq (entry : Nat) {calls : List (Call κ)}
    (distinct : (calls.map Call.id).Nodup) :
    promoteFirst entry calls = calls ∨
      ∃ c ∈ calls, c.entry = entry ∧ c.stage = .waiting ∧ promoteFirst entry calls =
        calls.map fun d => if d.id = c.id then { d with stage := .holding } else d := by
  induction calls with
  | nil => exact .inl rfl
  | cons c rest ih =>
      rw [List.map_cons, List.nodup_cons] at distinct
      rw [promoteFirst]
      by_cases hfirst : c.entry = entry ∧ c.stage = .waiting
      · right
        refine ⟨c, List.mem_cons_self, hfirst.1, hfirst.2, ?_⟩
        have hrest : rest.map (fun d => if d.id = c.id then { d with stage := .holding } else d) =
            rest := by
          refine (List.map_congr_left fun d hd => ?_).trans (List.map_id rest)
          exact if_neg fun hid => distinct.1 (List.mem_map.2 ⟨d, hd, hid⟩)
        rw [if_pos hfirst, List.map_cons, if_pos rfl, hrest]
      · rw [if_neg hfirst]
        rcases ih distinct.2 with hsame | ⟨d, hd, hentry, hstage, hmap⟩
        · exact .inl (congrArg _ hsame)
        · right
          refine ⟨d, List.mem_cons_of_mem c hd, hentry, hstage, ?_⟩
          have hne : c.id ≠ d.id := fun hid => distinct.1 (List.mem_map.2 ⟨d, hd, hid.symm⟩)
          rw [List.map_cons, if_neg hne, hmap]

theorem call?_eq_some {s : Flights κ ε ν} {id : Nat} {c : Call κ} (h : s.call? id = some c) :
    c ∈ s.calls ∧ c.id = id :=
  ⟨List.mem_of_find?_eq_some h, by simpa using List.find?_some h⟩

theorem leave_eq {s : Flights κ ε ν} {id : Nat} {c : Call κ} (h : s.call? id = some c) :
    s.leave id = (s.depart id).handOver c.entry := by
  rw [leave, h]

variable [DecidableEq κ] {s t : Flights κ ε ν} {now : Nat}

namespace Steps

theorem single {event : Event κ ε ν} (step : Step now event s t) : Steps now [event] s t :=
  .head step (.refl t)

end Steps

theorem Run.extend {lifetimes : Lifetimes} {history : List (Nat × Event κ ε ν)} {past : Nat}
    (run : Run lifetimes history past s) (later : past ≤ now) {events : List (Event κ ε ν)}
    (steps : Steps now events s t) :
    ∃ longer last, last ≤ now ∧ Run lifetimes longer last t := by
  induction steps generalizing history past with
  | refl => exact ⟨history, past, later, run⟩
  | head step _ ih => exact ih (run.step later step) (Nat.le_refl now)

theorem handOver_steps (consistent : s.Consistent) (entry : Nat) :
    ∃ events, Steps now events s (s.handOver entry) := by
  rw [handOver]
  cases hheld : s.isHeld entry with
  | true => exact ⟨[], .refl s⟩
  | false =>
      rcases promoteFirst_eq entry consistent.distinct with hsame | ⟨c, hc, rfl, hstage, hmap⟩
      · simp only [hsame]
        exact ⟨[], .refl s⟩
      · simp only [hmap]
        exact ⟨_, .single (.grasp hc hstage hheld)⟩

/-! ### Operations -/

theorem arrive_steps (consistent : s.Consistent) (enabled : s.lifetimes.isEnabled = true)
    {id : Nat} (fresh : ∀ c ∈ s.calls, c.id ≠ id) (key : κ) :
    ∃ events, Steps now events s (s.arrive id key now) := by
  obtain ⟨events, steps⟩ : ∃ events, Steps now events _ (s.arrive id key now) :=
    handOver_steps (consistent.join key fresh now) _
  exact ⟨_, .head (.join id key enabled fresh) steps⟩

theorem leave_steps (consistent : s.Consistent) (id : Nat) :
    ∃ events, Steps now events s (s.leave id) := by
  cases h : s.call? id with
  | none =>
      rw [leave, h]
      exact ⟨[], .refl s⟩
  | some c =>
      obtain ⟨hmem, rfl⟩ := call?_eq_some h
      rw [leave_eq h]
      obtain ⟨events, steps⟩ : ∃ events, Steps now events _ _ :=
        handOver_steps (consistent.depart c.id) c.entry
      exact ⟨_, .head (.leave hmem) steps⟩

theorem consult_steps (consistent : s.Consistent) {id : Nat} {c : Call κ}
    (h : s.call? id = some c) (holding : c.stage = .holding) :
    ∃ events, Steps now events s (s.consult id now).2 := by
  obtain ⟨hmem, rfl⟩ := call?_eq_some h
  obtain ⟨entry, hfound⟩ := consistent.found hmem
  cases hfresh : entry.fresh? now with
  | some answer =>
      have hconsult : (s.consult c.id now).2 = (s.depart c.id).handOver c.entry := by
        simp [consult, h, hfound, hfresh, leave_eq h]
      rw [hconsult]
      obtain ⟨events, steps⟩ : ∃ events, Steps now events _ _ :=
        handOver_steps (consistent.depart c.id) c.entry
      exact ⟨_, .head (.answer hmem holding hfound hfresh) steps⟩
  | none =>
      have hconsult : (s.consult c.id now).2 = s.advance c.id .loading := by
        simp [consult, h, hfound, hfresh]
      rw [hconsult]
      exact ⟨_, .single (.begin hmem holding hfound hfresh)⟩

theorem store_steps (consistent : s.Consistent) {id : Nat} {c : Call κ}
    (h : s.call? id = some c) (loading : c.stage = .loading) (answer : Except ε ν) :
    ∃ events, Steps now events s (s.store id answer now) := by
  obtain ⟨hmem, rfl⟩ := call?_eq_some h
  have hcall : (s.keep c.entry answer now).call? c.id = some c := h
  have hstore : s.store c.id answer now =
      ((s.keep c.entry answer now).depart c.id).handOver c.entry := by
    rw [store, h]
    exact leave_eq hcall
  rw [hstore]
  obtain ⟨events, steps⟩ : ∃ events, Steps now events _ _ :=
    handOver_steps ((consistent.keep c.entry answer now).depart c.id) c.entry
  exact ⟨_, .head (.load answer hmem loading) steps⟩

/-- The states that operations lead to, each with the time. -/
inductive Operated (lifetimes : Lifetimes) : Nat → Flights κ ε ν → Prop where
  | start : Operated lifetimes 0 (.empty lifetimes)
  | wait {past now : Nat} {s : Flights κ ε ν} (operated : Operated lifetimes past s)
      (later : past ≤ now) : Operated lifetimes now s
  | arrive {now id : Nat} {s : Flights κ ε ν} (operated : Operated lifetimes now s)
      (enabled : s.lifetimes.isEnabled = true) (fresh : ∀ c ∈ s.calls, c.id ≠ id) (key : κ) :
      Operated lifetimes now (s.arrive id key now)
  | leave {now : Nat} {s : Flights κ ε ν} (operated : Operated lifetimes now s) (id : Nat) :
      Operated lifetimes now (s.leave id)
  | consult {now id : Nat} {s : Flights κ ε ν} {c : Call κ} (operated : Operated lifetimes now s)
      (called : s.call? id = some c) (holding : c.stage = .holding) :
      Operated lifetimes now (s.consult id now).2
  | store {now id : Nat} {s : Flights κ ε ν} {c : Call κ} (operated : Operated lifetimes now s)
      (called : s.call? id = some c) (loading : c.stage = .loading) (answer : Except ε ν) :
      Operated lifetimes now (s.store id answer now)
  | sweep {now : Nat} {s : Flights κ ε ν} (operated : Operated lifetimes now s) :
      Operated lifetimes now (s.sweep now).2

theorem Operated.run {lifetimes : Lifetimes} (operated : Operated lifetimes now s) :
    ∃ history last, last ≤ now ∧ Run lifetimes history last s := by
  induction operated with
  | start => exact ⟨[], 0, Nat.le_refl 0, .start⟩
  | wait _ later ih =>
      obtain ⟨history, last, hlast, run⟩ := ih
      exact ⟨history, last, Nat.le_trans hlast later, run⟩
  | arrive _ enabled fresh key ih =>
      obtain ⟨history, last, hlast, run⟩ := ih
      obtain ⟨events, steps⟩ := arrive_steps run.consistent enabled fresh key
      exact run.extend hlast steps
  | leave _ id ih =>
      obtain ⟨history, last, hlast, run⟩ := ih
      obtain ⟨events, steps⟩ := leave_steps run.consistent id
      exact run.extend hlast steps
  | consult _ called holding ih =>
      obtain ⟨history, last, hlast, run⟩ := ih
      obtain ⟨events, steps⟩ := consult_steps run.consistent called holding
      exact run.extend hlast steps
  | store _ called loading answer ih =>
      obtain ⟨history, last, hlast, run⟩ := ih
      obtain ⟨events, steps⟩ := store_steps run.consistent called loading answer
      exact run.extend hlast steps
  | sweep _ ih =>
      obtain ⟨history, last, hlast, run⟩ := ih
      exact run.extend hlast (.single .sweep)

end ManifestRelay.Cache.Flights
