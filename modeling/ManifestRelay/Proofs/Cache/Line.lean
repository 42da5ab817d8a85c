import ManifestRelay.Proofs.Cache.Likeness
import ManifestRelay.Proofs.Cache.Operations

/-!
# Calls in line

The calls in flight for a key stand in line, in order of arrival.  The first of them is
done waiting and all others wait.  A call that leaves lets the others close up: if it was
the first, the next gets the entry, and otherwise only its own place in the line is gone.
-/

namespace ManifestRelay.Cache.Flights

variable {κ ε ν : Type}

/-- The first call in line is done waiting, and all others wait. -/
def IsLine : List (Call κ) → Prop
  | [] => True
  | first :: rest => first.stage ≠ .waiting ∧ ∀ c ∈ rest, c.stage = .waiting

/-- Let the first call in line get what the line is for. -/
def lead : List (Call κ) → List (Call κ)
  | [] => []
  | first :: rest =>
      (if first.stage = .waiting then { first with stage := .holding } else first) :: rest

theorem lead_of_isLine {line : List (Call κ)} (h : IsLine line) : lead line = line := by
  cases line with
  | nil => rfl
  | cons first rest => rw [lead, if_neg h.1]

/-- A line in which all wait, with its entry given to the first. -/
def promoted : List (Call κ) → List (Call κ)
  | [] => []
  | next :: rest => { next with stage := .holding } :: rest

theorem lead_eq_promoted {rest : List (Call κ)} (waiting : ∀ c ∈ rest, c.stage = .waiting) :
    lead rest = promoted rest := by
  cases rest with
  | nil => rfl
  | cons next rest => rw [lead, if_pos (waiting next List.mem_cons_self), promoted]

theorem lead_concat {line : List (Call κ)} (h : IsLine line) (last : Call κ) :
    ∃ stage, lead (line ++ [last]) = line ++ [{ last with stage }] := by
  cases line with
  | nil =>
      rw [List.nil_append, lead]
      split
      · exact ⟨.holding, rfl⟩
      · exact ⟨last.stage, rfl⟩
  | cons first rest => exact ⟨last.stage, by rw [List.cons_append, lead, if_neg h.1]⟩

/-- Where all but the first wait, a line is in order once the first is led on. -/
theorem isLine_lead {line : List (Call κ)} (waiting : ∀ c ∈ line.tail, c.stage = .waiting) :
    IsLine (lead line) := by
  cases line with
  | nil => trivial
  | cons first rest =>
      refine ⟨?_, waiting⟩
      split
      · exact nofun
      · next hstage => exact hstage

theorem IsLine.tail_filter {line : List (Call κ)} (h : IsLine line) (p : Call κ → Bool) :
    ∀ c ∈ (line.filter p).tail, c.stage = .waiting := by
  cases line with
  | nil => exact nofun
  | cons first rest =>
      intro c hc
      rw [List.filter_cons] at hc
      split at hc
      · exact h.2 c (List.mem_of_mem_filter hc)
      · exact h.2 c (List.mem_of_mem_filter (List.mem_of_mem_tail hc))

theorem IsLine.tail_concat {line : List (Call κ)} (h : IsLine line) {last : Call κ}
    (waiting : last.stage = .waiting) : ∀ c ∈ (line ++ [last]).tail, c.stage = .waiting := by
  cases line with
  | nil => exact nofun
  | cons first rest =>
      rw [List.cons_append, List.tail_cons]
      exact List.forall_mem_append.2 ⟨h.2, List.forall_mem_singleton.2 waiting⟩

theorem IsLine.map {line : List (Call κ)} (h : IsLine line) {f : Call κ → Call κ}
    (same : ∀ c ∈ line, (f c).stage = .waiting ↔ c.stage = .waiting) : IsLine (line.map f) := by
  cases line with
  | nil => trivial
  | cons first rest =>
      obtain ⟨hfirst, hrest⟩ := List.forall_mem_cons.1 same
      refine ⟨mt hfirst.1 h.1, fun c hc => ?_⟩
      obtain ⟨d, hd, rfl⟩ := List.mem_map.1 hc
      exact (hrest d hd).2 (h.2 d hd)

/-! ### Promotion -/

theorem ids_promoteFirst (entry : Nat) (calls : List (Call κ)) :
    (promoteFirst entry calls).map Call.id = calls.map Call.id := by
  induction calls with
  | nil => rfl
  | cons c rest ih =>
      rw [promoteFirst]
      split
      · rfl
      · rw [List.map_cons, ih, List.map_cons]

theorem mem_promoteFirst {entry : Nat} {calls : List (Call κ)} {d : Call κ}
    (h : d ∈ promoteFirst entry calls) :
    d ∈ calls ∨ ∃ c ∈ calls, c.stage = .waiting ∧ d = { c with stage := .holding } := by
  induction calls with
  | nil => cases h
  | cons c rest ih =>
      rw [promoteFirst] at h
      split at h
      · next hfirst =>
        rcases List.mem_cons.1 h with rfl | hrest
        · exact .inr ⟨c, List.mem_cons_self, hfirst.2, rfl⟩
        · exact .inl (List.mem_cons_of_mem c hrest)
      · rcases List.mem_cons.1 h with rfl | hrest
        · exact .inl List.mem_cons_self
        · rcases ih hrest with hmem | ⟨e, he, hstage, rfl⟩
          · exact .inl (List.mem_cons_of_mem c hmem)
          · exact .inr ⟨e, List.mem_cons_of_mem c he, hstage, rfl⟩

theorem index_leave (s : Flights κ ε ν) (id : Nat) : (s.leave id).index = s.index := by
  rw [leave]
  split
  · rw [handOver]
    split <;> rfl
  · rfl

/-- The holder of an entry leaves with the answer that is fresh, or begins to load. -/
def takeTurn (s : Flights κ ε ν) (id : Nat) (fresh : Option (Except ε ν)) :
    Option (Except ε ν) × Flights κ ε ν :=
  match fresh with
  | some answer => (some answer, s.leave id)
  | none => (none, s.advance id .loading)

section Lines

variable [DecidableEq κ]

theorem filter_promoteFirst {entry : Nat} {key : κ} {calls : List (Call κ)}
    (placed : ∀ c ∈ calls, c.entry = entry ↔ c.key = key) (other : κ) :
    (promoteFirst entry calls).filter (fun c => c.key = other) =
      if other = key then promoteFirst entry (calls.filter fun c => c.key = other)
      else calls.filter fun c => c.key = other := by
  induction calls with
  | nil => rw [promoteFirst, List.filter_nil, promoteFirst, ite_self]
  | cons c rest ih =>
      obtain ⟨hfirst, hrest⟩ := List.forall_mem_cons.1 placed
      have hlater := ih hrest
      rw [promoteFirst]
      split
      · next hpromoted =>
        have hkey : c.key = key := hfirst.1 hpromoted.1
        by_cases hother : other = key
        · subst hother
          simp [hkey, promoteFirst, hpromoted]
        · simp [hkey, hother, Ne.symm hother]
      · next hkept =>
        by_cases hkey : c.key = other
        · have hstays (more : List (Call κ)) : (c :: more).filter (fun c => c.key = other) =
              c :: more.filter fun c => c.key = other :=
            List.filter_cons_of_pos (decide_eq_true hkey)
          rw [hstays, hstays, hlater]
          split
          · rw [promoteFirst, if_neg hkept]
          · rfl
        · have hgoes (more : List (Call κ)) : (c :: more).filter (fun c => c.key = other) =
              more.filter fun c => c.key = other :=
            List.filter_cons_of_neg (mt of_decide_eq_true hkey)
          rw [hgoes, hgoes, hlater]

/-- The calls in flight for a key, in order of arrival. -/
def line (s : Flights κ ε ν) (key : κ) : List (Call κ) := s.calls.filter fun c => c.key = key

theorem mem_line {s : Flights κ ε ν} {key : κ} {c : Call κ} :
    c ∈ s.line key ↔ c ∈ s.calls ∧ c.key = key := by
  rw [line, List.mem_filter, decide_eq_true_iff]

theorem line_depart (s : Flights κ ε ν) (id : Nat) (key : κ) :
    (s.depart id).line key = (s.line key).filter (·.id != id) := by
  rw [line, line, depart, List.filter_filter, List.filter_filter]
  simp only [Bool.and_comm]

theorem line_join (s : Flights κ ε ν) (id : Nat) (key : κ) (now : Nat) (other : κ) :
    (s.join id key now).line other =
      if other = key then s.line key ++ [⟨id, key, (s.locate key now).1, .waiting⟩]
      else s.line other := by
  rw [line, calls_join, List.filter_append]
  by_cases h : other = key
  · subst h
    simp [line]
  · simp [line, h, Ne.symm h]

section Entries

variable {s : Flights κ ε ν} (consistent : s.Consistent)
  (apart : ∀ first ∈ s.index, ∀ second ∈ s.index, first.2 = second.2 → first.1 = second.1)
  {key : κ} {entry : Nat} (found : s.index.lookup key = some entry)

include consistent apart found

theorem entry_eq_iff_key {c : Call κ} (hc : c ∈ s.calls) : c.entry = entry ↔ c.key = key := by
  have hplaced := consistent.placed c hc
  constructor
  · exact apart _ (mem_of_lookup_eq_some hplaced) _ (mem_of_lookup_eq_some found)
  · intro hkey
    rw [hkey, found] at hplaced
    exact (Option.some.inj hplaced).symm

theorem isHeld_eq_true_iff :
    s.isHeld entry = true ↔ ∃ c ∈ s.line key, c.stage ≠ .waiting := by
  rw [isHeld, List.any_eq_true]
  constructor
  · rintro ⟨c, hc, hholds⟩
    rw [Bool.and_eq_true, beq_iff_eq, bne_iff_ne] at hholds
    exact ⟨c, mem_line.2 ⟨hc, (entry_eq_iff_key consistent apart found hc).1 hholds.1⟩, hholds.2⟩
  · rintro ⟨c, hc, hstage⟩
    obtain ⟨hmem, hkey⟩ := mem_line.1 hc
    have hentry := (entry_eq_iff_key consistent apart found hmem).2 hkey
    exact ⟨c, hmem, by rw [Bool.and_eq_true, beq_iff_eq, bne_iff_ne]; exact ⟨hentry, hstage⟩⟩

/-- An entry is handed over to the first in line, if all others wait. -/
theorem line_handOver (waiting : ∀ c ∈ (s.line key).tail, c.stage = .waiting) (other : κ) :
    (s.handOver entry).line other = if other = key then lead (s.line key) else s.line other := by
  rw [handOver]
  cases hheld : s.isHeld entry with
  | true =>
      rw [if_pos rfl]
      split
      · next hother =>
        obtain ⟨c, hc, hstage⟩ := (isHeld_eq_true_iff consistent apart found).1 hheld
        rw [hother]
        cases hline : s.line key with
        | nil => rfl
        | cons first rest =>
            rw [hline] at hc waiting
            rcases List.mem_cons.1 hc with rfl | hrest
            · rw [lead, if_neg hstage]
            · exact absurd (waiting c hrest) hstage
      · rfl
  | false =>
      rw [if_neg Bool.false_ne_true, line,
        filter_promoteFirst fun c hc => entry_eq_iff_key consistent apart found hc]
      split
      · next hother =>
        subst hother
        change promoteFirst entry (s.line other) = lead (s.line other)
        have hall : ∀ c ∈ s.line other, c.entry = entry ∧ c.stage = .waiting := by
          intro c hc
          obtain ⟨hmem, hkey⟩ := mem_line.1 hc
          refine ⟨(entry_eq_iff_key consistent apart found hmem).2 hkey, ?_⟩
          by_contra hstage
          rw [(isHeld_eq_true_iff consistent apart found).2 ⟨c, hc, hstage⟩] at hheld
          cases hheld
        cases hline : s.line other with
        | nil => rfl
        | cons first rest =>
            rw [hline] at hall
            have hfirst := hall first List.mem_cons_self
            rw [promoteFirst, if_pos hfirst, lead, if_pos hfirst.2]
      · rfl

end Entries

/-! ### Operations on lines -/

theorem place?_handOver (s : Flights κ ε ν) (entry : Nat) (key : κ) :
    (s.handOver entry).place? key = s.place? key := by
  rw [handOver]
  split <;> rfl

theorem place?_leave (s : Flights κ ε ν) (id : Nat) (key : κ) :
    (s.leave id).place? key = s.place? key := by
  rw [leave]
  split
  · exact place?_handOver _ _ key
  · rfl

/-- Calls stand in line for the entries of their keys. -/
structure Ordered (s : Flights κ ε ν) : Prop where
  consistent : s.Consistent
  apart : ∀ first ∈ s.index, ∀ second ∈ s.index, first.2 = second.2 → first.1 = second.1
  lined : ∀ key, IsLine (s.line key)

namespace Ordered

variable {s : Flights κ ε ν} (ordered : s.Ordered)

include ordered

theorem nodup_line (key : κ) : ((s.line key).map Call.id).Nodup :=
  ordered.consistent.distinct.sublist (List.filter_sublist.map Call.id)

/-- A call that arrives stands in line behind all others for its key. -/
theorem line_arrive {id : Nat} (fresh : ∀ c ∈ s.calls, c.id ≠ id) (key : κ) (now : Nat)
    (other : κ) : (s.arrive id key now).line other =
      if other = key then lead (s.line key ++ [⟨id, key, (s.locate key now).1, .waiting⟩])
      else s.line other := by
  have hjoined := s.line_join id key now
  have hapart := apart_locate ordered.consistent.made ordered.apart key now
  have hfound : (s.join id key now).index.lookup key = some (s.locate key now).1 :=
    s.lookup_locate key now
  rw [arrive, line_handOver (ordered.consistent.join key fresh now) hapart hfound]
  · rw [hjoined key, hjoined other, if_pos rfl]
    split <;> rfl
  · rw [hjoined key, if_pos rfl]
    exact (ordered.lined key).tail_concat rfl

/-- When a call leaves, the others for its key close up. -/
theorem line_leave {c : Call κ} (hc : c ∈ s.calls) (other : κ) :
    (s.leave c.id).line other =
      if other = c.key then lead ((s.line c.key).filter (·.id != c.id)) else s.line other := by
  have hdeparted : (s.depart c.id).index.lookup c.key = some c.entry := ordered.consistent.placed c hc
  rw [leave_eq (call?_of_mem ordered.consistent hc),
    line_handOver (ordered.consistent.depart c.id) ordered.apart hdeparted]
  · rw [line_depart, line_depart]
    split
    · rfl
    · next hother =>
      refine List.filter_eq_self.2 fun d hd => ?_
      obtain ⟨hmem, hkey⟩ := mem_line.1 hd
      rw [bne_iff_ne]
      intro hid
      rw [ordered.consistent.eq_of_id hmem hc hid] at hkey
      exact hother hkey.symm
  · rw [line_depart]
    exact (ordered.lined c.key).tail_filter _

theorem lined_arrive {id : Nat} (fresh : ∀ c ∈ s.calls, c.id ≠ id) (key : κ) (now : Nat)
    (other : κ) : IsLine ((s.arrive id key now).line other) := by
  rw [ordered.line_arrive fresh]
  split
  · exact isLine_lead ((ordered.lined key).tail_concat rfl)
  · exact ordered.lined other

theorem lined_leave {c : Call κ} (hc : c ∈ s.calls) (other : κ) :
    IsLine ((s.leave c.id).line other) := by
  rw [ordered.line_leave hc]
  split
  · exact isLine_lead ((ordered.lined c.key).tail_filter _)
  · exact ordered.lined other

theorem lined_advance {c : Call κ} (hc : c ∈ s.calls) (holding : c.stage = .holding) (other : κ) :
    IsLine ((s.advance c.id .loading).line other) := by
  have hline : (s.advance c.id .loading).line other = (s.line other).map fun d =>
      if d.id = c.id then { d with stage := .loading } else d := by
    rw [line, line, advance, List.filter_map]
    congr 1
    refine List.filter_congr fun d _ => ?_
    simp only [Function.comp_apply]
    split <;> rfl
  rw [hline]
  refine (ordered.lined other).map fun d hd => ?_
  split
  · next hid =>
    have neither : Stage.loading = .waiting ↔ Stage.holding = .waiting := by decide
    rw [ordered.consistent.eq_of_id (mem_line.1 hd).1 hc hid, holding]
    exact neither
  · exact Iff.rfl

theorem keep (entry : Nat) (answer : Except ε ν) (now : Nat) :
    (s.keep entry answer now).Ordered where
  consistent := ordered.consistent.keep entry answer now
  apart := ordered.apart
  lined := ordered.lined

theorem consult_eq {c : Call κ} (hc : c ∈ s.calls) (time : Nat) :
    s.consult c.id time = s.takeTurn c.id (s.freshFor? c.key time) := by
  have hfresh : ((s.entries[c.entry]?).bind fun entry => entry.fresh? time) =
      s.freshFor? c.key time := by
    rw [freshFor?, place?, ordered.consistent.placed c hc, Option.bind_some]
  rw [consult, call?_of_mem ordered.consistent hc, Option.bind_some, hfresh]
  rfl

theorem line_of_not_waiting {c : Call κ} (hc : c ∈ s.calls) (stage : c.stage ≠ .waiting) :
    ∃ rest, s.line c.key = c :: rest ∧ ∀ d ∈ rest, d.stage = .waiting := by
  have hmem : c ∈ s.line c.key := mem_line.2 ⟨hc, rfl⟩
  have hlined := ordered.lined c.key
  cases hline : s.line c.key with
  | nil =>
      rw [hline] at hmem
      cases hmem
  | cons first rest =>
      rw [hline] at hmem hlined
      rcases List.mem_cons.1 hmem with rfl | hrest
      · exact ⟨rest, rfl, hlined.2⟩
      · exact absurd (hlined.2 c hrest) stage

theorem line_of_waiting {c : Call κ} (hc : c ∈ s.calls) (waiting : c.stage = .waiting) :
    ∃ holder before after, s.line c.key = holder :: (before ++ c :: after) ∧
      holder.stage ≠ .waiting := by
  have hmem : c ∈ s.line c.key := mem_line.2 ⟨hc, rfl⟩
  have hlined := ordered.lined c.key
  cases hline : s.line c.key with
  | nil =>
      rw [hline] at hmem
      cases hmem
  | cons first rest =>
      rw [hline] at hmem hlined
      rcases List.mem_cons.1 hmem with rfl | hrest
      · exact absurd waiting hlined.1
      · obtain ⟨before, after, rfl⟩ := List.append_of_mem hrest
        exact ⟨first, before, after, rfl, hlined.1⟩

theorem filter_line {c : Call κ} {before after : List (Call κ)}
    (hline : s.line c.key = before ++ c :: after) :
    (s.line c.key).filter (·.id != c.id) = before ++ after := by
  have hdistinct := ordered.nodup_line c.key
  rw [hline, List.map_append, List.map_cons, List.nodup_append] at hdistinct
  obtain ⟨-, hafter, hbefore⟩ := hdistinct
  rw [hline, List.filter_append, List.filter_cons_of_neg (by simp)]
  congr 1
  · refine List.filter_eq_self.2 fun d hd => ?_
    rw [bne_iff_ne]
    exact hbefore d.id (List.mem_map_of_mem hd) c.id List.mem_cons_self
  · refine List.filter_eq_self.2 fun d hd => ?_
    rw [bne_iff_ne]
    rintro hid
    exact (List.nodup_cons.1 hafter).1 (hid ▸ List.mem_map_of_mem hd)

end Ordered

end Lines

end ManifestRelay.Cache.Flights
