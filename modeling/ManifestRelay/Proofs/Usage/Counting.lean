import Mathlib.Data.List.Basic
import Mathlib.Data.List.Perm.Basic
import ManifestRelay.Proofs.Lookup
import ManifestRelay.Usage.Counters

/-!
# Counting

Each counter has a value of its own, which only what is counted under its name
and what is taken off under its name changes.  So it does not matter in which
order counters are counted up, and subtractions may come in between.
-/

namespace ManifestRelay.Usage

/-! ### Words -/

theorem asWord_zero : asWord 0 = 0 := Int.zero_bmod

theorem asWord_asWord (n : Int) : asWord (asWord n) = asWord n := Int.bmod_bmod

theorem asWord_add_left (a b : Int) : asWord (asWord a + b) = asWord (a + b) := Int.bmod_add_bmod

theorem asWord_of_fits {n : Int} (nonnegative : 0 ≤ n) (fits : n ≤ Binary.greatestInteger 64) :
    asWord n = n := by
  have hgreatest : Binary.greatestInteger 64 = 9223372036854775807 := rfl
  have hpatterns : (Binary.patterns 64 : Int) = 18446744073709551616 := rfl
  rw [hgreatest] at fits
  refine Int.bmod_eq_of_le_mul_two ?_ ?_
  · rw [hpatterns]
    omega
  · rw [hpatterns]
    omega

/-! ### Values -/

theorem Amounts.of_eq_zero {amounts : Amounts} {name : String}
    (h : name ∉ amounts.map Prod.fst) : amounts.of name = 0 := by
  have hnone : amounts.lookup name = none := by
    refine List.lookup_eq_none_iff.2 fun entry hentry => ?_
    rw [bne_iff_ne]
    rintro rfl
    exact h (List.mem_map_of_mem hentry)
  rw [Amounts.of, hnone, Option.getD_none]

theorem Amounts.of_cons (entry : String × Int) (rest : Amounts) (name : String) :
    Amounts.of (entry :: rest) name = if name = entry.1 then entry.2 else rest.of name := by
  unfold Amounts.of
  rw [List.lookup_cons]
  by_cases h : name = entry.1
  · simp [h]
  · simp [h, beq_eq_false_iff_ne.2 h]

theorem Amounts.of_eq_of_mem {amounts : Amounts} (distinct : (amounts.map Prod.fst).Nodup)
    {entry : String × Int} (h : entry ∈ amounts) : amounts.of entry.1 = entry.2 := by
  rw [Amounts.of, (lookup_eq_some_iff_mem distinct).2 h, Option.getD_some]

namespace Counters

variable {c : Counters} {name : String}

def names (c : Counters) : List String := c.counts.map Prod.fst

def value (c : Counters) (name : String) : Int := c.counts.of name

theorem isRegistered_iff : c.isRegistered name = true ↔ name ∈ c.names := by
  constructor
  · intro h
    obtain ⟨n, hlookup⟩ := Option.isSome_iff_exists.1 h
    exact List.mem_map_of_mem (mem_of_lookup_eq_some hlookup)
  · intro h
    obtain ⟨entry, hentry, rfl⟩ := List.mem_map.1 h
    rw [isRegistered, Option.isSome_iff_ne_none]
    intro hnone
    have hother := List.lookup_eq_none_iff.1 hnone entry hentry
    rw [bne_self_eq_false] at hother
    cases hother

theorem value_eq_zero (h : name ∉ c.names) : c.value name = 0 := Amounts.of_eq_zero h

@[simp] theorem names_shift (c : Counters) (amount : String → Int) :
    (c.shift amount).names = c.names := by
  simp [names, shift]

theorem value_shift (c : Counters) (amount : String → Int) (h : name ∈ c.names) :
    (c.shift amount).value name = asWord (c.value name + amount name) := by
  obtain ⟨counts⟩ := c
  induction counts with
  | nil => cases h
  | cons entry rest ih =>
      obtain ⟨other, n⟩ := entry
      show Amounts.of ((other, asWord (n + amount other)) :: (shift ⟨rest⟩ amount).counts) name =
        asWord (Amounts.of ((other, n) :: rest) name + amount name)
      rw [Amounts.of_cons, Amounts.of_cons]
      by_cases hname : name = other
      · rw [if_pos hname, if_pos hname, hname]
      · rw [if_neg hname, if_neg hname]
        exact ih ((List.mem_cons.1 h).resolve_left hname)

theorem counts_eq (distinct : c.names.Nodup) :
    c.counts = c.names.map fun name => (name, c.value name) := by
  rw [names, List.map_map]
  have hsame : ∀ entry ∈ c.counts, id entry = (entry.1, c.value entry.1) := fun entry hentry =>
    Prod.ext rfl (Amounts.of_eq_of_mem distinct hentry).symm
  exact (List.map_id c.counts).symm.trans (List.map_congr_left hsame)

theorem ext_value {d : Counters} (distinct : c.names.Nodup) (names : d.names = c.names)
    (values : ∀ name ∈ c.names, d.value name = c.value name) : d = c := by
  have hcounts : d.counts = c.counts := by
    rw [counts_eq distinct, counts_eq (names ▸ distinct), names]
    refine List.map_congr_left fun name hname => ?_
    rw [values name hname]
  exact congrArg Counters.mk hcounts

/-- A name that is taken stays as it is, and a new one starts from zero. -/
theorem register_cases (c : Counters) (name : String) :
    (name ∈ c.names ∧ c.register name = none) ∨
      (name ∉ c.names ∧ ∃ d, c.register name = some d ∧ d.names = c.names ++ [name] ∧
        ∀ other, d.value other = c.value other) := by
  by_cases h : c.isRegistered name = true
  · exact .inl ⟨isRegistered_iff.1 h, if_pos h⟩
  · refine .inr ⟨fun hname => h (isRegistered_iff.2 hname), _, if_neg h, ?_, fun other => ?_⟩
    · simp [names]
    · simp only [value, Amounts.of, List.lookup_append, List.lookup_cons, List.lookup_nil]
      cases c.counts.lookup other with
      | some n => rfl
      | none => cases other == name <;> rfl

/-! ### Snapshots -/

theorem names_snapshot_sublist (c : Counters) : (c.snapshot.map Prod.fst).Sublist c.names :=
  List.filter_sublist.map Prod.fst

theorem of_snapshot (distinct : c.names.Nodup) (name : String) :
    c.snapshot.of name = c.value name := by
  by_cases h : ∃ entry ∈ c.snapshot, entry.1 = name
  · obtain ⟨entry, hentry, rfl⟩ := h
    rw [Amounts.of_eq_of_mem (distinct.sublist c.names_snapshot_sublist) hentry]
    exact (Amounts.of_eq_of_mem distinct (List.mem_of_mem_filter hentry)).symm
  · rw [Amounts.of_eq_zero fun hname => h (List.mem_map.1 hname)]
    by_contra hvalue
    have hmem : name ∈ c.names := by
      by_contra hname
      exact hvalue (value_eq_zero hname).symm
    obtain ⟨entry, hentry, rfl⟩ := List.mem_map.1 hmem
    refine h ⟨entry, List.mem_filter.2 ⟨hentry, ?_⟩, rfl⟩
    have hof := Amounts.of_eq_of_mem distinct hentry
    rw [bne_iff_ne, ← hof]
    exact Ne.symm hvalue

theorem ne_zero_of_mem_snapshot {entry : String × Int} (h : entry ∈ c.snapshot) : entry.2 ≠ 0 :=
  bne_iff_ne.1 (List.mem_filter.1 h).2

/-! ### Counting up -/

def AreWords (c : Counters) : Prop := ∀ name, asWord (c.value name) = c.value name

theorem areWords_shift (c : Counters) (amount : String → Int) : (c.shift amount).AreWords := by
  intro name
  by_cases hname : name ∈ c.names
  · rw [value_shift c amount hname]
    exact asWord_asWord _
  · rw [value_eq_zero (by rwa [names_shift])]
    rfl

def increments (c : Counters) (events : List String) : Counters :=
  events.foldl (fun c name => c.increment name 1) c

theorem increments_append (c : Counters) (first rest : List String) :
    c.increments (first ++ rest) = (c.increments first).increments rest := List.foldl_append

@[simp] theorem names_increments (c : Counters) (events : List String) :
    (c.increments events).names = c.names := by
  induction events generalizing c with
  | nil => rfl
  | cons event rest ih => exact (ih _).trans (names_shift c _)

theorem value_increments (words : c.AreWords) (events : List String) (h : name ∈ c.names) :
    (c.increments events).value name = asWord (c.value name + events.count name) := by
  induction events generalizing c with
  | nil => rw [List.count_nil, Int.ofNat_zero, Int.add_zero, words name]; rfl
  | cons event rest ih =>
      have hrest := ih (areWords_shift c fun other => if other = event then 1 else 0)
        (by rwa [names_shift])
      rw [value_shift c _ h, asWord_add_left] at hrest
      refine hrest.trans (congrArg asWord ?_)
      rw [List.count_cons]
      by_cases hevent : name = event
      · simp [hevent]
        omega
      · simp [hevent, Ne.symm hevent]

theorem increments_perm (words : c.AreWords) (distinct : c.names.Nodup) {first second : List String}
    (same : first.Perm second) : c.increments first = c.increments second := by
  refine ext_value (by rwa [names_increments]) (by simp) fun name hname => ?_
  rw [names_increments] at hname
  rw [value_increments words first hname, value_increments words second hname, same.count_eq name]

end Counters

/-! ### Going through the counters -/

/-- While the counters are gone through, an event is counted or the next counter is reached. -/
inductive Moment where
  | count (name : String)
  | reach (name : String)
deriving DecidableEq, Repr

namespace Moment

def reached : List Moment → List String
  | [] => []
  | .count _ :: rest => reached rest
  | .reach name :: rest => name :: reached rest

def counted : List Moment → List String
  | [] => []
  | .count name :: rest => name :: counted rest
  | .reach _ :: rest => counted rest

/-- The events that are counted before their counter is reached. -/
def early : List Moment → List String
  | [] => []
  | .count name :: rest => name :: early rest
  | .reach name :: rest => (early rest).filter (· != name)

/-- The events that are counted when their counter has been reached already. -/
def late : List Moment → List String
  | [] => []
  | .count _ :: rest => late rest
  | .reach name :: rest => (early rest).filter (· == name) ++ late rest

theorem early_append_late (moments : List Moment) :
    (early moments ++ late moments).Perm (counted moments) := by
  induction moments with
  | nil => exact List.Perm.refl []
  | cons moment rest ih =>
      cases moment with
      | count name => exact ih.cons name
      | reach name =>
          have hsplit := List.filter_append_perm (· != name) (early rest)
          simp only [bne, Bool.not_not] at hsplit
          rw [early, late, ← List.append_assoc]
          exact (hsplit.append_right (late rest)).trans ih

end Moment

namespace Counters

variable {c : Counters} {name : String}

/-- Read each counter when it is reached: what was read, and the counters then. -/
def gather : List Moment → Counters → Amounts × Counters
  | [], c => ([], c)
  | .count name :: rest, c => gather rest (c.increment name 1)
  | .reach name :: rest, c =>
      let (read, last) := gather rest c
      ((name, c.value name) :: read, last)

/-- Take its amount off each counter when it is reached. -/
def settle (amounts : Amounts) : List Moment → Counters → Counters
  | [], c => c
  | .count name :: rest, c => settle amounts rest (c.increment name 1)
  | .reach name :: rest, c =>
      settle amounts rest (c.shift fun other => if other = name then -amounts.of other else 0)

theorem of_gather (words : c.AreWords) {moments : List Moment}
    (once : (Moment.reached moments).Nodup) (known : name ∈ c.names)
    (h : name ∈ Moment.reached moments) :
    (gather moments c).1.of name = (c.increments (Moment.early moments)).value name := by
  induction moments generalizing c with
  | nil => cases h
  | cons moment rest ih =>
      cases moment with
      | count event =>
          exact ih (areWords_shift c _) once (by rwa [increment, names_shift]) h
      | reach other =>
          obtain ⟨hnew, honce⟩ := List.nodup_cons.1 once
          rw [gather, Amounts.of_cons, Moment.early, value_increments words _ known]
          -- what is counted of a counter once it has been read comes too late for the reading
          by_cases hother : name = other
          · have hnone : ((Moment.early rest).filter (· != other)).count name = 0 :=
              List.count_eq_zero.2 fun hmem => by simp [hother] at hmem
            rw [if_pos hother, hnone, Int.ofNat_zero, Int.add_zero, words name, hother]
          · have hrest := ih words honce known ((List.mem_cons.1 h).resolve_left hother)
            rw [if_neg hother, List.count_filter (by simpa using hother), hrest,
              value_increments words _ known]

theorem gather_counters (moments : List Moment) :
    (gather moments c).2 = c.increments (Moment.counted moments) := by
  induction moments generalizing c with
  | nil => rfl
  | cons moment rest ih =>
      cases moment with
      | count name => exact ih
      | reach name => exact ih

/-- Counters that were read one after another while events were counted are those of one moment, with
the early events before it and the late ones behind it. -/
theorem gather_eq (words : c.AreWords) (distinct : c.names.Nodup) {moments : List Moment}
    (all : (Moment.reached moments).Perm c.names) :
    c.names.map (fun name => (name, (gather moments c).1.of name)) =
        (c.increments (Moment.early moments)).counts ∧
      (gather moments c).2 =
        (c.increments (Moment.early moments)).increments (Moment.late moments) := by
  constructor
  · rw [counts_eq (by rwa [names_increments]), names_increments]
    refine List.map_congr_left fun name hname => congrArg (Prod.mk name) ?_
    exact of_gather words (all.nodup_iff.2 distinct) hname (all.mem_iff.2 hname)
  · rw [gather_counters, ← increments_append]
    exact increments_perm words distinct (Moment.early_append_late moments).symm

theorem names_settle (amounts : Amounts) (moments : List Moment) :
    (settle amounts moments c).names = c.names := by
  induction moments generalizing c with
  | nil => rfl
  | cons moment rest ih =>
      cases moment with
      | count name => exact ih.trans (names_shift c _)
      | reach name => exact ih.trans (names_shift c _)

theorem value_settle (words : c.AreWords) (amounts : Amounts) {moments : List Moment}
    (once : (Moment.reached moments).Nodup) (known : name ∈ c.names) :
    (settle amounts moments c).value name =
      asWord (c.value name + (Moment.counted moments).count name -
        if name ∈ Moment.reached moments then amounts.of name else 0) := by
  induction moments generalizing c with
  | nil =>
      rw [settle, Moment.counted, Moment.reached, List.count_nil, if_neg List.not_mem_nil,
        Int.ofNat_zero, Int.add_zero, Int.sub_zero, words name]
  | cons moment rest ih =>
      cases moment with
      | count event =>
          have hrest := ih (areWords_shift c fun other => if other = event then ((1 : Nat) : Int) else 0)
            once (by rwa [names_shift])
          rw [value_shift c _ known, Int.add_sub_assoc, asWord_add_left] at hrest
          refine hrest.trans (congrArg asWord ?_)
          rw [Moment.counted, Moment.reached, List.count_cons]
          by_cases hevent : name = event
          · simp only [hevent, beq_self_eq_true, if_true]
            omega
          · simp only [hevent, if_false, beq_eq_false_iff_ne.2 (Ne.symm hevent), Bool.false_eq_true]
            omega
      | reach other =>
          obtain ⟨hnew, honce⟩ := List.nodup_cons.1 once
          have hrest := ih (areWords_shift c fun name => if name = other then -amounts.of name else 0)
            honce (by rwa [names_shift])
          rw [value_shift c _ known, Int.add_sub_assoc, asWord_add_left] at hrest
          refine hrest.trans (congrArg asWord ?_)
          rw [Moment.counted, Moment.reached]
          by_cases hother : name = other
          · subst hother
            rw [if_pos rfl, if_neg hnew, if_pos List.mem_cons_self]
            omega
          · simp only [hother, if_false, List.mem_cons, false_or]
            omega

/-- Taking amounts off one after another while events are counted comes to counting the events and
taking off the amounts at once. -/
theorem settle_eq (words : c.AreWords) (distinct : c.names.Nodup) {amounts : Amounts}
    (single : (amounts.map Prod.fst).Nodup) {moments : List Moment}
    (all : (Moment.reached moments).Perm (amounts.map Prod.fst)) :
    settle amounts moments c = (c.increments (Moment.counted moments)).subtract amounts := by
  have hnames : (settle amounts moments c).names =
      ((c.increments (Moment.counted moments)).subtract amounts).names := by
    rw [names_settle, subtract, names_shift, names_increments]
  refine ext_value (by rwa [← hnames, names_settle]) hnames fun name hname => ?_
  rw [← hnames, names_settle] at hname
  have hreached : (if name ∈ Moment.reached moments then amounts.of name else 0) = amounts.of name := by
    split
    next => rfl
    next h => exact (Amounts.of_eq_zero fun hmem => h (all.mem_iff.2 hmem)).symm
  rw [value_settle words amounts (all.nodup_iff.2 single) hname, hreached, subtract,
    value_shift _ _ (by rwa [names_increments]), value_increments words _ hname, asWord_add_left]
  rfl

end Counters

end ManifestRelay.Usage
