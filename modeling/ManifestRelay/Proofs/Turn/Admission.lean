import Mathlib.Data.List.Nodup
import ManifestRelay.Turn.Selection

/-!
# Files admitted to a turn

A selection admits the files that it is offered one after another, until one of
its limits is met.  All files of a list are admitted exactly if the limits hold
of the list as a whole: the order of the files does not matter.
-/

namespace ManifestRelay.Turn

structure Offer where
  path : String
  data : List UInt8
  /-- Whether the current glob selects it. -/
  wanted : Bool

def wantedOf (offers : List Offer) : List Offer := offers.filter Offer.wanted

def totalSize (offers : List Offer) : Nat := (offers.flatMap Offer.data).length

theorem totalSize_cons (o : Offer) (rest : List Offer) :
    totalSize (o :: rest) = o.data.length + totalSize rest := by
  rw [totalSize, List.flatMap_cons, List.length_append, totalSize]

namespace Selection

def passOver (s : Selection) : Selection := { s with count := s.count + 1 }

def spend (s : Selection) (o : Offer) : Selection :=
  { s with
    count := s.count + 1
    taken := o.path :: s.taken
    remaining := s.remaining - o.data.length }

/-- What a selection becomes by an offer, unless it fails. -/
def admitOne (s : Selection) (o : Offer) : Option Selection :=
  if s.count = s.maxCount then none
  else if !o.wanted then some s.passOver
  else if o.path ∉ s.taken ∧ o.data.length ≤ s.limit then some (s.spend o)
  else none

theorem admitOne_full {s : Selection} (full : s.count = s.maxCount) (o : Offer) :
    s.admitOne o = none := if_pos full

theorem admitOne_unwanted {s : Selection} (room : s.count ≠ s.maxCount) {o : Offer}
    (unwanted : o.wanted = false) : s.admitOne o = some s.passOver := by
  rw [admitOne, if_neg room, unwanted]
  rfl

theorem admitOne_wanted {s : Selection} (room : s.count ≠ s.maxCount) {o : Offer}
    (wanted : o.wanted = true) :
    s.admitOne o = if o.path ∉ s.taken ∧ o.data.length ≤ s.limit then some (s.spend o) else none := by
  rw [admitOne, if_neg room, wanted]
  rfl

/-- What a selection becomes by offers one after another, unless one of them fails. -/
def admitAll (s : Selection) : List Offer → Option Selection
  | [] => some s
  | o :: rest => (s.admitOne o).bind fun t => t.admitAll rest

theorem admitAll_append (s : Selection) (first rest : List Offer) :
    s.admitAll (first ++ rest) = (s.admitAll first).bind fun t => t.admitAll rest := by
  induction first generalizing s with
  | nil => rfl
  | cons o first ih =>
      rw [List.cons_append, admitAll, admitAll, Option.bind_assoc]
      exact congrArg _ (funext ih)

/-- The glob that a selection goes by makes no difference to what it admits. -/
theorem admitOne_withMatcher (s : Selection) (matcher : Glob.Matcher) (o : Offer) :
    (s.withMatcher matcher).admitOne o = (s.admitOne o).map fun t => t.withMatcher matcher := by
  unfold admitOne
  rw [apply_ite (Option.map _), apply_ite (Option.map _), apply_ite (Option.map _)]
  rfl

theorem admitAll_withMatcher (s : Selection) (matcher : Glob.Matcher) (offers : List Offer) :
    (s.withMatcher matcher).admitAll offers =
      (s.admitAll offers).map fun t => t.withMatcher matcher := by
  induction offers generalizing s with
  | nil => rfl
  | cons o rest ih =>
      rw [admitAll, admitAll, admitOne_withMatcher]
      cases s.admitOne o with
      | none => rfl
      | some t => exact ih t

/-! ### Decisions -/

section Decisions

variable {s : Selection} {path : String}

theorem offer_full (full : s.count = s.maxCount) :
    s.offer path = (.error (.tooManyFiles s.maxCount), s) := if_pos full

theorem offer_unwanted (room : s.count ≠ s.maxCount) (unwanted : s.selects path = false) :
    s.offer path = (.ok .skip, s.passOver) := by
  rw [offer, if_neg room, unwanted]
  rfl

theorem offer_again (room : s.count ≠ s.maxCount) (wanted : s.selects path = true)
    (again : path ∈ s.taken) : s.offer path = (.error (.duplicatePath path), s.passOver) := by
  rw [offer, if_neg room, wanted, if_neg (by decide), if_pos again]
  rfl

theorem offer_fresh (room : s.count ≠ s.maxCount) (wanted : s.selects path = true)
    (fresh : path ∉ s.taken) :
    s.offer path = (.ok (.take s.limit), { s.passOver with taken := path :: s.taken }) := by
  rw [offer, if_neg room, wanted, if_neg (by decide), if_neg fresh]
  rfl

end Decisions

/-! ### Limits -/

/-- The limits of a selection hold of offers as a whole. -/
structure Fits (s : Selection) (offers : List Offer) : Prop where
  count : s.count + offers.length ≤ s.maxCount
  distinct : ((wantedOf offers).map Offer.path).Nodup
  fresh : ∀ o ∈ wantedOf offers, o.path ∉ s.taken
  each : ∀ o ∈ wantedOf offers, o.data.length ≤ s.fileSize
  total : totalSize (wantedOf offers) ≤ s.remaining

variable {s : Selection} {o : Offer} {rest : List Offer}

theorem fits_nil (count : s.count ≤ s.maxCount) (remaining : 0 ≤ s.remaining) : s.Fits [] where
  count := count
  distinct := List.nodup_nil
  fresh := nofun
  each := nofun
  total := remaining

theorem fits_cons_of_unwanted (unwanted : o.wanted = false) :
    s.Fits (o :: rest) ↔ s.passOver.Fits rest := by
  have hwanted : wantedOf (o :: rest) = wantedOf rest :=
    List.filter_cons_of_neg (by rw [unwanted]; exact Bool.false_ne_true)
  have hcount : s.count + (o :: rest).length = s.passOver.count + rest.length := by
    rw [List.length_cons, passOver, Nat.add_assoc, Nat.add_comm 1]
  constructor
  · rintro ⟨count, distinct, fresh, each, total⟩
    rw [hwanted] at distinct fresh each total
    rw [hcount] at count
    exact ⟨count, distinct, fresh, each, total⟩
  · rintro ⟨count, distinct, fresh, each, total⟩
    rw [← hwanted] at distinct fresh each total
    rw [← hcount] at count
    exact ⟨count, distinct, fresh, each, total⟩

theorem fits_cons_of_wanted (wanted : o.wanted = true) :
    s.Fits (o :: rest) ↔
      (o.path ∉ s.taken ∧ o.data.length ≤ s.limit) ∧ (s.spend o).Fits rest := by
  have hwanted : wantedOf (o :: rest) = o :: wantedOf rest := List.filter_cons_of_pos wanted
  have hcount : s.count + (o :: rest).length = (s.spend o).count + rest.length := by
    rw [List.length_cons, spend, Nat.add_assoc, Nat.add_comm 1]
  constructor
  · rintro ⟨count, distinct, fresh, each, total⟩
    rw [hwanted, List.map_cons, List.nodup_cons] at distinct
    rw [hwanted] at fresh each total
    rw [totalSize_cons, Int.natCast_add] at total
    rw [hcount] at count
    obtain ⟨hfresh, hfreshRest⟩ := List.forall_mem_cons.1 fresh
    obtain ⟨heach, heachRest⟩ := List.forall_mem_cons.1 each
    refine ⟨⟨hfresh, Int.le_min.2 ⟨by omega, heach⟩⟩, count, distinct.2, ?_, heachRest, ?_⟩
    · intro other hother htaken
      rcases List.mem_cons.1 htaken with hsame | hold
      · exact distinct.1 (List.mem_map.2 ⟨other, hother, hsame⟩)
      · exact hfreshRest other hother hold
    · exact Int.le_sub_left_of_add_le total
  · rintro ⟨⟨hfresh, hlimit⟩, count, distinct, fresh, each, total⟩
    rw [← hcount] at count
    obtain ⟨hremaining, hfile⟩ := Int.le_min.1 hlimit
    refine ⟨count, ?_, ?_, ?_, ?_⟩
    · rw [hwanted, List.map_cons, List.nodup_cons]
      refine ⟨fun hmem => ?_, distinct⟩
      obtain ⟨other, hother, hsame⟩ := List.mem_map.1 hmem
      exact fresh other hother (hsame ▸ List.mem_cons_self)
    · rw [hwanted]
      exact List.forall_mem_cons.2
        ⟨hfresh, fun other hother htaken => fresh other hother (.tail _ htaken)⟩
    · rw [hwanted]
      exact List.forall_mem_cons.2 ⟨hfile, each⟩
    · rw [hwanted, totalSize_cons, Int.natCast_add]
      exact Int.add_le_of_le_sub_left total

/-- Offers are admitted one after another exactly if the limits hold of them as a whole. -/
theorem isSome_admitAll_iff (count : s.count ≤ s.maxCount) (remaining : 0 ≤ s.remaining)
    (offers : List Offer) : (s.admitAll offers).isSome ↔ s.Fits offers := by
  induction offers generalizing s with
  | nil => exact iff_of_true rfl (fits_nil count remaining)
  | cons o rest ih =>
      rw [admitAll]
      by_cases hfull : s.count = s.maxCount
      · rw [admitOne_full hfull]
        refine iff_of_false Bool.false_ne_true fun hfits => ?_
        have hlength := hfits.count
        rw [List.length_cons] at hlength
        omega
      have hroom : s.count + 1 ≤ s.maxCount := by omega
      cases hwanted : o.wanted with
      | false =>
          rw [admitOne_unwanted hfull hwanted, fits_cons_of_unwanted hwanted]
          exact ih hroom remaining
      | true =>
          rw [admitOne_wanted hfull hwanted, fits_cons_of_wanted hwanted]
          by_cases hfits : o.path ∉ s.taken ∧ (o.data.length : Int) ≤ s.limit
          · rw [if_pos hfits, and_iff_right hfits]
            exact ih hroom (Int.sub_nonneg_of_le (Int.le_min.1 hfits.2).1)
          · rw [if_neg hfits]
            exact iff_of_false Bool.false_ne_true fun h => hfits h.1

end Selection

end ManifestRelay.Turn
