import Mathlib
import ManifestRelay.Proofs.Usage.Counting
import ManifestRelay.Usage.Reporter

/-!
# No count is lost or reported twice

Books are kept of a reporter: how many events have been counted under each
name, and which reports have been accepted.  What has been counted and not yet
reported is what the counter shows, whichever reports are refused and whatever is
counted while one is under way.
-/

namespace ManifestRelay.Usage

/-- A reporter with the books of its past. -/
structure Books where
  reporter : Reporter
  /-- How many events have been counted under a name. -/
  made : String → Nat
  /-- The accepted reports, latest first. -/
  accepted : List Amounts

inductive Act where
  | register (name : String)
  | count (name : String)
  /-- A report is begun, unless one is under way. -/
  | begin
  | answer (accepted : Bool)
deriving DecidableEq, Repr

theorem Reporter.begin_fst {r : Reporter} {amounts : Amounts} (h : r.begin.1 = some amounts) :
    amounts ≠ [] ∧ amounts = r.counters.snapshot := by
  rw [Reporter.begin] at h
  split at h
  next => cases h
  next hsome =>
    cases h
    exact ⟨hsome, rfl⟩

namespace Books

variable {b : Books}

def empty : Books := ⟨⟨.empty, none⟩, fun _ => 0, []⟩

def counters (b : Books) : Counters := b.reporter.counters

/-- The sum of the amounts of a name in all accepted reports. -/
def reported (b : Books) (name : String) : Int := (b.accepted.map (·.of name)).sum

/-- What has been counted and was in no accepted report. -/
def unreported (b : Books) (name : String) : Int := b.made name - b.reported name

def countOne (b : Books) (name : String) : Books :=
  { b with
    reporter := b.reporter.increment name 1
    made := fun other => b.made other + if other = name then 1 else 0 }

/-- Events are counted on the handles of registered counters only. -/
def perform (b : Books) : Act → Books
  | .register name =>
      match b.counters.register name with
      | some counters => { b with reporter := { b.reporter with counters } }
      | none => b
  | .count name => if name ∈ b.counters.names then b.countOne name else b
  | .begin => if b.reporter.inFlight = none then { b with reporter := b.reporter.begin.2 } else b
  | .answer accepted =>
      { b with
        reporter := b.reporter.finish accepted
        accepted := if accepted then b.reporter.inFlight.toList ++ b.accepted else b.accepted }

def performAll (b : Books) (acts : List Act) : Books := acts.foldl perform b

def after (acts : List Act) : Books := empty.performAll acts

theorem performAll_append (b : Books) (first rest : List Act) :
    b.performAll (first ++ rest) = (b.performAll first).performAll rest := List.foldl_append

theorem after_append (first rest : List Act) :
    after (first ++ rest) = (after first).performAll rest := performAll_append empty first rest

theorem names_countOne (b : Books) (name : String) :
    (b.countOne name).counters.names = b.counters.names :=
  Counters.names_shift b.counters fun other => if other = name then ((1 : Nat) : Int) else 0

theorem unreported_countOne (b : Books) (name other : String) :
    (b.countOne name).unreported other =
      b.unreported other + if other = name then ((1 : Nat) : Int) else 0 := by
  show ((b.made other + if other = name then 1 else 0 : Nat) : Int) - b.reported other =
    b.made other - b.reported other + if other = name then ((1 : Nat) : Int) else 0
  split <;> omega

def settled (b : Books) (amounts : Amounts) : Books :=
  { b with reporter := ⟨b.counters.subtract amounts, none⟩, accepted := amounts :: b.accepted }

theorem unreported_settled (b : Books) (amounts : Amounts) (name : String) :
    (b.settled amounts).unreported name = b.unreported name + -amounts.of name := by
  show (b.made name : Int) - ((amounts :: b.accepted).map (·.of name)).sum =
    b.made name - b.reported name + -amounts.of name
  rw [List.map_cons, List.sum_cons, reported]
  omega

theorem perform_answer (b : Books) (accepted : Bool) :
    (b.reporter.inFlight = none ∧ b.perform (.answer accepted) = b) ∨
      ∃ amounts, b.reporter.inFlight = some amounts ∧ b.perform (.answer accepted) =
        if accepted then b.settled amounts else { b with reporter := ⟨b.counters, none⟩ } := by
  obtain ⟨⟨counters, inFlight⟩, made, past⟩ := b
  cases inFlight with
  | none =>
      refine .inl ⟨rfl, ?_⟩
      cases accepted <;> rfl
  | some amounts =>
      refine .inr ⟨amounts, rfl, ?_⟩
      cases accepted <;> rfl

theorem perform_begin (b : Books) :
    b.perform .begin = b ∨ b.reporter.inFlight = none ∧ b.counters.snapshot ≠ [] ∧
      b.perform .begin = { b with reporter := ⟨b.counters, some b.counters.snapshot⟩ } := by
  rw [perform]
  split
  next hidle =>
    rw [Reporter.begin]
    split
    next => exact .inl rfl
    next hsome => exact .inr ⟨hidle, hsome, rfl⟩
  next => exact .inl rfl

/-! ### Every counter shows what is unreported, as a word -/

/-- The counters agree with the books as words do. -/
structure Balanced (b : Books) : Prop where
  distinct : b.counters.names.Nodup
  value_eq : ∀ name, b.counters.value name = asWord (b.unreported name)
  unknown : ∀ name, name ∉ b.counters.names → b.unreported name = 0
  inFlight : ∀ amounts, b.reporter.inFlight = some amounts →
    (amounts.map Prod.fst).Sublist b.counters.names

namespace Balanced

theorem words (h : b.Balanced) : b.counters.AreWords := fun name => by
  rw [h.value_eq name]
  exact asWord_asWord _

theorem of_eq_zero (h : b.Balanced) {amounts : Amounts} (flying : b.reporter.inFlight = some amounts)
    {name : String} (unregistered : name ∉ b.counters.names) : amounts.of name = 0 :=
  Amounts.of_eq_zero fun hmem => unregistered ((h.inFlight amounts flying).subset hmem)

theorem register (h : b.Balanced) (name : String) : (b.perform (.register name)).Balanced := by
  obtain ⟨-, hnone⟩ | ⟨hnew, d, hsome, hnames, hvalue⟩ := b.counters.register_cases name
  · rw [perform, hnone]
    exact h
  · rw [perform, hsome]
    refine ⟨?_, fun other => (hvalue other).trans (h.value_eq other), fun other hother => ?_,
      fun amounts hflying => ?_⟩
    · show d.names.Nodup
      rw [hnames]
      exact List.nodup_append'.2 ⟨h.distinct, List.nodup_singleton name, by simpa using hnew⟩
    · have hother : other ∉ d.names := hother
      rw [hnames] at hother
      exact h.unknown other fun hmem => hother (List.mem_append_left [name] hmem)
    · show (amounts.map Prod.fst).Sublist d.names
      rw [hnames]
      exact (h.inFlight amounts hflying).trans (List.sublist_append_left _ _)

theorem shift (h : b.Balanced) {d : Books} (amount : String → Int)
    (counters : d.counters = b.counters.shift amount)
    (unreported : ∀ name, d.unreported name = b.unreported name + amount name)
    (unknown : ∀ name, name ∉ b.counters.names → amount name = 0)
    (inFlight : ∀ amounts, d.reporter.inFlight = some amounts →
      (amounts.map Prod.fst).Sublist b.counters.names) : d.Balanced := by
  have hnames : d.counters.names = b.counters.names := by rw [counters, Counters.names_shift]
  have hunknown : ∀ name, name ∉ b.counters.names → d.unreported name = 0 := fun name hname => by
    rw [unreported, h.unknown name hname, unknown name hname, Int.add_zero]
  refine ⟨by rw [hnames]; exact h.distinct, fun name => ?_, fun name hname => ?_,
    fun amounts hflying => by rw [hnames]; exact inFlight amounts hflying⟩
  -- words are added up as numbers are, so it does not matter whether the counter has wrapped around
  · by_cases hname : name ∈ b.counters.names
    · rw [counters, Counters.value_shift _ _ hname, h.value_eq, asWord_add_left, unreported]
    · rw [hunknown name hname, asWord_zero, Counters.value_eq_zero (by rwa [hnames])]
  · exact hunknown name (by rwa [← hnames])

theorem count (h : b.Balanced) (name : String) : (b.perform (.count name)).Balanced := by
  rw [perform]
  split
  next hname =>
    refine h.shift _ rfl (b.unreported_countOne name) (fun other hother => if_neg fun heq => ?_)
      h.inFlight
    exact hother (heq ▸ hname)
  next => exact h

theorem begin (h : b.Balanced) : (b.perform .begin).Balanced := by
  obtain hsame | ⟨-, -, hbegun⟩ := b.perform_begin
  · rw [hsame]
    exact h
  · rw [hbegun]
    refine ⟨h.distinct, h.value_eq, h.unknown, fun amounts hflying => ?_⟩
    cases hflying
    exact b.counters.names_snapshot_sublist

theorem settled (h : b.Balanced) {amounts : Amounts}
    (flying : b.reporter.inFlight = some amounts) : (b.settled amounts).Balanced := by
  refine h.shift _ rfl (b.unreported_settled amounts) (fun name hname => ?_) fun amounts hnone => ?_
  · rw [h.of_eq_zero flying hname, Int.neg_zero]
  · cases hnone

theorem answer (h : b.Balanced) (accepted : Bool) : (b.perform (.answer accepted)).Balanced := by
  obtain ⟨-, hsame⟩ | ⟨amounts, hflying, hanswer⟩ := b.perform_answer accepted
  · rw [hsame]
    exact h
  · rw [hanswer]
    cases accepted with
    | true => exact h.settled hflying
    | false => exact ⟨h.distinct, h.value_eq, h.unknown, fun amounts hnone => by cases hnone⟩

theorem perform (h : b.Balanced) (act : Act) : (b.perform act).Balanced := by
  cases act with
  | register name => exact h.register name
  | count name => exact h.count name
  | begin => exact h.begin
  | answer accepted => exact h.answer accepted

theorem performAll (h : b.Balanced) (acts : List Act) : (b.performAll acts).Balanced := by
  induction acts generalizing b with
  | nil => exact h
  | cons act rest ih => exact ih (h.perform act)

theorem empty : Balanced empty :=
  ⟨List.nodup_nil, fun _ => asWord_zero.symm, fun _ _ => rfl, fun _ hnone => by cases hnone⟩

theorem after (acts : List Act) : (after acts).Balanced := empty.performAll acts

end Balanced

/-! ### Words that do not wrap around -/

/-- What is unreported is within what a counter can show. -/
def Fits (b : Books) : Prop := ∀ name, b.unreported name ≤ Binary.greatestInteger 64

/-- No more is reported than has been counted, not even when what is in flight is accepted. -/
structure Sound (b : Books) : Prop where
  nonnegative : ∀ name, 0 ≤ b.unreported name
  inFlight : ∀ amounts, b.reporter.inFlight = some amounts → ∀ name,
    0 ≤ amounts.of name ∧ amounts.of name ≤ b.unreported name

theorem value_eq_unreported (balanced : b.Balanced) (sound : b.Sound) (fits : b.Fits)
    (name : String) : b.counters.value name = b.unreported name := by
  rw [balanced.value_eq name, asWord_of_fits (sound.nonnegative name) (fits name)]

theorem Sound.perform (h : b.Sound) (balanced : b.Balanced) (fits : b.Fits) (act : Act) :
    (b.perform act).Sound := by
  cases act with
  | register name =>
      rw [Books.perform]
      split
      next => exact ⟨h.nonnegative, h.inFlight⟩
      next => exact h
  | count name =>
      rw [Books.perform]
      split
      next =>
        have hmore : ∀ other, b.unreported other ≤ (b.countOne name).unreported other := by
          intro other
          rw [unreported_countOne]
          split <;> omega
        refine ⟨fun other => Int.le_trans (h.nonnegative other) (hmore other), fun amounts hflying other => ?_⟩
        obtain ⟨hlower, hupper⟩ := h.inFlight amounts hflying other
        exact ⟨hlower, Int.le_trans hupper (hmore other)⟩
      next => exact h
  | begin =>
      obtain hsame | ⟨-, -, hbegun⟩ := b.perform_begin
      · rw [hsame]
        exact h
      · rw [hbegun]
        refine ⟨h.nonnegative, fun amounts hflying name => ?_⟩
        cases hflying
        -- only here it matters that no counter has wrapped around: what is sent is what is unreported
        rw [Counters.of_snapshot balanced.distinct, value_eq_unreported balanced h fits]
        exact ⟨h.nonnegative name, Int.le_refl _⟩
  | answer accepted =>
      obtain ⟨-, hsame⟩ | ⟨amounts, hflying, hanswer⟩ := b.perform_answer accepted
      · rw [hsame]
        exact h
      · rw [hanswer]
        cases accepted with
        | false => exact ⟨h.nonnegative, fun amounts hnone => by cases hnone⟩
        | true =>
            refine ⟨fun name => ?_, fun amounts hnone => by cases hnone⟩
            have hupper := (h.inFlight amounts hflying name).2
            rw [if_pos rfl, unreported_settled]
            omega

/-- As long as no counter wraps around, no more is reported than has been counted. -/
theorem Sound.after (acts : List Act)
    (fits : ∀ earlier, earlier <+: acts → (Books.after earlier).Fits) : (Books.after acts).Sound := by
  induction acts using List.reverseRecOn with
  | nil => exact ⟨fun _ => Int.le_refl 0, fun _ hnone => by cases hnone⟩
  | append_singleton acts act ih =>
      have hsound := ih fun earlier hbefore => fits earlier (hbefore.trans (List.prefix_append acts [act]))
      have hfits := fits acts (List.prefix_append acts [act])
      rw [after_append]
      exact hsound.perform (Balanced.after acts) hfits act

/-! ### Reports that take their time -/

/-- Begin a report by going through the counters while events are counted. -/
def beginThrough (b : Books) (moments : List Moment) : Books :=
  let gathered := Counters.gather moments b.counters
  let amounts := Counters.snapshot ⟨b.counters.names.map fun name => (name, gathered.1.of name)⟩
  ⟨⟨gathered.2, if amounts = [] then none else some amounts⟩,
    fun name => b.made name + (Moment.counted moments).count name, b.accepted⟩

/-- Take accepted amounts off by going through the counters while events are counted. -/
def settleThrough (b : Books) (amounts : Amounts) (moments : List Moment) : Books :=
  ⟨⟨Counters.settle amounts moments b.counters, none⟩,
    fun name => b.made name + (Moment.counted moments).count name, amounts :: b.accepted⟩

theorem performAll_count (b : Books) {events : List String}
    (known : ∀ name ∈ events, name ∈ b.counters.names) :
    b.performAll (events.map .count) = ⟨⟨b.counters.increments events, b.reporter.inFlight⟩,
      fun name => b.made name + events.count name, b.accepted⟩ := by
  induction events generalizing b with
  | nil => rfl
  | cons event rest ih =>
      obtain ⟨hevent, hrest⟩ := List.forall_mem_cons.1 known
      have hone : b.perform (.count event) = b.countOne event := if_pos hevent
      rw [← b.names_countOne event] at hrest
      rw [List.map_cons, performAll, List.foldl_cons, hone]
      refine (ih (b.countOne event) hrest).trans ?_
      refine congrArg (fun made => Books.mk _ made _) (funext fun name => ?_)
      rw [List.count_cons, countOne]
      by_cases hname : name = event
      · simp only [hname, beq_self_eq_true, if_true]
        omega
      · simp only [hname, if_false, beq_eq_false_iff_ne.2 (Ne.symm hname), Bool.false_eq_true]
        omega

theorem performAll_begin (counters : Counters) (made : String → Nat) (accepted : List Amounts) :
    performAll ⟨⟨counters, none⟩, made, accepted⟩ [.begin] =
      ⟨⟨counters, if counters.snapshot = [] then none else some counters.snapshot⟩, made, accepted⟩ := by
  rw [performAll, List.foldl_cons, List.foldl_nil, perform, if_pos rfl, Reporter.begin]
  split
  next => rfl
  next => rfl

theorem beginThrough_eq (balanced : b.Balanced) (idle : b.reporter.inFlight = none)
    {moments : List Moment} (all : (Moment.reached moments).Perm b.counters.names)
    (known : ∀ name ∈ Moment.counted moments, name ∈ b.counters.names) :
    b.beginThrough moments = b.performAll
      ((Moment.early moments).map .count ++ [.begin] ++ (Moment.late moments).map .count) := by
  have hsplit := Moment.early_append_late moments
  have hearly : ∀ name ∈ Moment.early moments, name ∈ b.counters.names := fun name hname =>
    known name (hsplit.mem_iff.1 (List.mem_append_left _ hname))
  have hlate : ∀ name ∈ Moment.late moments, name ∈ b.counters.names := fun name hname =>
    known name (hsplit.mem_iff.1 (List.mem_append_right _ hname))
  obtain ⟨hread, hcounters⟩ := Counters.gather_eq balanced.words balanced.distinct all
  have hmade : ∀ name, b.made name + (Moment.counted moments).count name =
      b.made name + (Moment.early moments).count name + (Moment.late moments).count name := by
    intro name
    rw [← hsplit.count_eq name, List.count_append, Nat.add_assoc]
  rw [performAll_append, performAll_append, b.performAll_count hearly, idle, performAll_begin,
    performAll_count _ (by rwa [counters, Counters.names_increments]), beginThrough, hread, hcounters]
  exact congrArg (fun made => Books.mk _ made _) (funext hmade)

theorem settleThrough_eq (balanced : b.Balanced) {amounts : Amounts}
    (flying : b.reporter.inFlight = some amounts) {moments : List Moment}
    (all : (Moment.reached moments).Perm (amounts.map Prod.fst))
    (known : ∀ name ∈ Moment.counted moments, name ∈ b.counters.names) :
    b.settleThrough amounts moments =
      b.performAll ((Moment.counted moments).map .count ++ [Act.answer true]) := by
  have hsingle := balanced.distinct.sublist (balanced.inFlight amounts flying)
  rw [performAll_append, b.performAll_count known, settleThrough,
    Counters.settle_eq balanced.words balanced.distinct hsingle all, flying]
  rfl

/-! ### The balance -/

/-- However registering, counting, reports and their answers follow each other, a counter shows what
is unreported as a word of 64 bits.  While that is within what such a word can show, nothing is lost
or reported twice: what has been counted is in the counter or in an accepted report, and a report
hands over what is unreported of every counter that has any.  Counting on while the counters are gone
through, to read them or to take amounts off them, makes no difference. -/
theorem after_balance (acts : List Act) :
    (∀ name, (after acts).counters.value name =
      asWord ((after acts).made name - (after acts).reported name)) ∧
    ((∀ earlier, earlier <+: acts → ∀ name,
        (after earlier).made name - (after earlier).reported name ≤ Binary.greatestInteger 64) →
      (∀ name, ((after acts).made name : Int) =
          (after acts).counters.value name + (after acts).reported name ∧
        0 ≤ (after acts).counters.value name) ∧
      ∀ amounts, (after acts).reporter.begin.1 = some amounts →
        amounts ≠ [] ∧ (amounts.map Prod.fst).Nodup ∧ (∀ entry ∈ amounts, entry.2 ≠ 0) ∧
          ∀ name, amounts.of name = (after acts).made name - (after acts).reported name) ∧
    (∀ moments, (after acts).reporter.inFlight = none →
      (Moment.reached moments).Perm (after acts).counters.names →
      (∀ name ∈ Moment.counted moments, name ∈ (after acts).counters.names) →
      (after acts).beginThrough moments = after (acts ++
        ((Moment.early moments).map .count ++ [.begin] ++ (Moment.late moments).map .count))) ∧
    ∀ amounts moments, (after acts).reporter.inFlight = some amounts →
      (Moment.reached moments).Perm (amounts.map Prod.fst) →
      (∀ name ∈ Moment.counted moments, name ∈ (after acts).counters.names) →
      (after acts).settleThrough amounts moments =
        after (acts ++ ((Moment.counted moments).map .count ++ [Act.answer true])) := by
  have hbalanced := Balanced.after acts
  refine ⟨hbalanced.value_eq, fun hfits => ?_, fun moments hidle hall hknown => ?_,
    fun amounts moments hflying hall hknown => ?_⟩
  · have hvalue := value_eq_unreported hbalanced (Sound.after acts hfits)
      (hfits acts (List.prefix_refl acts))
    refine ⟨fun name => ?_, fun amounts hbegun => ?_⟩
    · rw [hvalue name]
      refine ⟨?_, (Sound.after acts hfits).nonnegative name⟩
      rw [unreported]
      omega
    · obtain ⟨hsome, rfl⟩ := Reporter.begin_fst hbegun
      refine ⟨hsome, hbalanced.distinct.sublist (Counters.names_snapshot_sublist _),
        fun entry hentry => Counters.ne_zero_of_mem_snapshot hentry, fun name => ?_⟩
      exact (Counters.of_snapshot hbalanced.distinct name).trans (hvalue name)
  · rw [after_append]
    exact beginThrough_eq hbalanced hidle hall hknown
  · rw [after_append]
    exact settleThrough_eq hbalanced hflying hall hknown

/-- One report is refused and the next one is under way; events are counted before and during each. -/
def underWay : List Act :=
  [.register "a", .count "a", .begin, .count "a", .answer false, .count "a", .begin, .count "a"]

/-- The report is accepted, and the fourth event is left for the next one. -/
theorem after_balance_underWay :
    (∀ earlier, earlier <+: underWay ++ [Act.answer true] → ∀ name,
      (after earlier).made name - (after earlier).reported name ≤ Binary.greatestInteger 64) ∧
    (∀ name, ((after (underWay ++ [Act.answer true])).made name : Int) =
        (after (underWay ++ [Act.answer true])).counters.value name +
          (after (underWay ++ [Act.answer true])).reported name ∧
      0 ≤ (after (underWay ++ [Act.answer true])).counters.value name) ∧
    (after (underWay ++ [Act.answer true])).made "a" = 4 ∧
    (after (underWay ++ [Act.answer true])).reported "a" = 3 ∧
    (after (underWay ++ [Act.answer true])).reporter.begin.1 = some [("a", 1)] ∧
    (∀ name, Amounts.of [("a", 1)] name = (after (underWay ++ [Act.answer true])).made name -
      (after (underWay ++ [Act.answer true])).reported name) ∧
    (after (underWay ++ [Act.answer true])).beginThrough [.count "a", .reach "a", .count "a"] =
      after (underWay ++ [Act.answer true] ++ [.count "a", .begin, .count "a"]) ∧
    (after underWay).settleThrough [("a", 3)] [.count "a", .reach "a", .count "a"] =
      after (underWay ++ [.count "a", .count "a", .answer true]) := by
  have hfits : ∀ earlier, earlier <+: underWay ++ [Act.answer true] → ∀ name,
      (after earlier).made name - (after earlier).reported name ≤ Binary.greatestInteger 64 := by
    intro earlier hbefore name
    have hone : ∀ earlier ∈ (underWay ++ [Act.answer true]).inits,
        (∀ name ∈ (after earlier).counters.names, name = "a") ∧
          (after earlier).made "a" - (after earlier).reported "a" ≤ Binary.greatestInteger 64 := by
      decide
    obtain ⟨honly, ha⟩ := hone earlier ((List.mem_inits _ _).2 hbefore)
    by_cases hname : name = "a"
    · rw [hname]
      exact ha
    · refine Int.le_trans (Int.le_of_eq ((Balanced.after earlier).unknown name ?_)) (by decide)
      exact fun hmem => hname (honly name hmem)
  obtain ⟨-, hexact, hbegin, -⟩ := after_balance (underWay ++ [Act.answer true])
  obtain ⟨-, -, -, hsettle⟩ := after_balance underWay
  obtain ⟨hvalue, hhanded⟩ := hexact hfits
  have hbegun : (after (underWay ++ [Act.answer true])).reporter.begin.1 = some [("a", 1)] := by decide
  obtain ⟨-, -, -, hamounts⟩ := hhanded [("a", 1)] hbegun
  exact ⟨hfits, hvalue, by decide, by decide, hbegun, hamounts,
    hbegin [.count "a", .reach "a", .count "a"] (by decide) (by decide) (by decide),
    hsettle [("a", 3)] [.count "a", .reach "a", .count "a"] (by decide) (by decide) (by decide)⟩

end Books

end ManifestRelay.Usage
