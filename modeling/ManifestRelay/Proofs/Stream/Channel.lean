import ManifestRelay.Stream.Channel

/-!
# What can become of a send

A send is refused, puts its item in at once, or waits; a send that waits is refused, puts its item
in, or goes on waiting.  Whatever is granted, the sends that wait stay what they are and stand in
one line, and no more places are filled or granted than there are.
-/

namespace ManifestRelay.Stream.Channel

variable {α : Type}

/-! ### Room that is set aside -/

theorem mem_grantFirst {p : Waiter α → Prop} (stable : ∀ w, p w → p { w with granted := true })
    {waiters : List (Waiter α)} (h : ∀ w ∈ waiters, p w) : ∀ w ∈ grantFirst waiters, p w := by
  induction waiters with
  | nil => exact h
  | cons first rest ih =>
      intro w hw
      rw [grantFirst] at hw
      split at hw
      · rcases List.mem_cons.1 hw with rfl | hrest
        · exact h w List.mem_cons_self
        · exact ih (fun other hother => h other (List.mem_cons_of_mem _ hother)) w hrest
      · rcases List.mem_cons.1 hw with rfl | hrest
        · exact stable first (h first List.mem_cons_self)
        · exact h w (List.mem_cons_of_mem _ hrest)

/-- What holds of all sends that wait, and is not about room, still holds after room was set
aside. -/
theorem mem_grantAll {p : Waiter α → Prop} (stable : ∀ w, p w → p { w with granted := true })
    {c : Channel α} (h : ∀ w ∈ c.waiters, p w) : ∀ w ∈ c.grantAll.waiters, p w := by
  unfold grantAll
  generalize min c.room c.waiters.length = n
  induction n with
  | zero => exact h
  | succ n ih => exact mem_grantFirst stable ih

theorem mem_abandon {p : Waiter α → Prop} (stable : ∀ w, p w → p { w with granted := true })
    {c : Channel α} (h : ∀ w ∈ c.waiters, p w) (number : Nat) :
    ∀ w ∈ (c.abandon number).waiters, p w :=
  mem_grantAll stable fun w hw => h w (List.mem_filter.1 hw).1

/-! ### Sending -/

/-- A send that cannot be cancelled gives up only if the reader is gone. -/
theorem closed_of_refusal {c : Channel α} {reason : SendError}
    (h : c.refusal false = some reason) : c.closed = true := by
  cases hclosed : c.closed with
  | true => rfl
  | false => simp [refusal, hclosed] at h

theorem open_of_refusal {c : Channel α} {cancellable : Bool}
    (h : c.refusal cancellable = none) : c.closed = false := by
  unfold refusal at h
  split at h
  · cases h
  · split at h
    · cases h
    · next hopen => exact Bool.eq_false_iff.2 hopen

section Sending

variable {c : Channel α} {item : α} {cancellable : Bool}

theorem send_of_refusal {reason : SendError} (h : c.refusal cancellable = some reason) :
    c.send item cancellable = (.refused reason, c) := by
  simp only [send, h]

theorem send_of_room (h : c.refusal cancellable = none) (hroom : 0 < c.room) :
    c.send item cancellable = (.sent, { c with buffer := c.buffer ++ [item] }) := by
  simp only [send, h, if_pos hroom]

theorem send_of_full (h : c.refusal cancellable = none) (hfull : ¬ 0 < c.room) :
    c.send item cancellable = (.waiting c.nextNumber, { c with
      waiters := c.waiters ++ [⟨c.nextNumber, item, cancellable, false⟩]
      nextNumber := c.nextNumber + 1 }) := by
  simp only [send, h, if_neg hfull]

end Sending

theorem send_cases (c : Channel α) (item : α) (cancellable : Bool) :
    (∃ reason, c.refusal cancellable = some reason ∧
      c.send item cancellable = (.refused reason, c)) ∨
    (c.closed = false ∧
      c.send item cancellable = (.sent, { c with buffer := c.buffer ++ [item] })) ∨
    (c.closed = false ∧ c.send item cancellable = (.waiting c.nextNumber, { c with
      waiters := c.waiters ++ [⟨c.nextNumber, item, cancellable, false⟩]
      nextNumber := c.nextNumber + 1 })) := by
  cases hrefusal : c.refusal cancellable with
  | some reason => exact .inl ⟨reason, rfl, send_of_refusal hrefusal⟩
  | none =>
      right
      have hopen := open_of_refusal hrefusal
      by_cases hroom : 0 < c.room
      · exact .inl ⟨hopen, send_of_room hrefusal hroom⟩
      · exact .inr ⟨hopen, send_of_full hrefusal hroom⟩

section Waking

variable {c : Channel α} {number : Nat} {w : Waiter α} (h : c.waiter? number = some w)

include h

theorem wake_of_refusal {reason : SendError} (hrefusal : c.refusal w.cancellable = some reason) :
    c.wake number = (some (.refused reason), c.abandon number) := by
  simp only [wake, h, hrefusal]

theorem wake_of_granted (hrefusal : c.refusal w.cancellable = none) (hgranted : w.granted = true) :
    c.wake number = (some .sent, { c with
      waiters := c.waiters.filter (·.number != number)
      buffer := c.buffer ++ [w.item] }) := by
  simp only [wake, h, hrefusal, if_pos hgranted]

theorem wake_of_not_granted (hrefusal : c.refusal w.cancellable = none)
    (hgranted : ¬ w.granted = true) : c.wake number = (some (.waiting number), c) := by
  simp only [wake, h, hrefusal, if_neg hgranted]

theorem wake_cases :
    (∃ reason, c.refusal w.cancellable = some reason ∧
      c.wake number = (some (.refused reason), c.abandon number)) ∨
    (c.closed = false ∧ c.wake number = (some .sent, { c with
      waiters := c.waiters.filter (·.number != number)
      buffer := c.buffer ++ [w.item] })) ∨
    (w.granted = false ∧ c.wake number = (some (.waiting number), c)) := by
  cases hrefusal : c.refusal w.cancellable with
  | some reason => exact .inl ⟨reason, rfl, wake_of_refusal h hrefusal⟩
  | none =>
      right
      by_cases hgranted : w.granted = true
      · exact .inl ⟨open_of_refusal hrefusal, wake_of_granted h hrefusal hgranted⟩
      · exact .inr ⟨Bool.eq_false_iff.2 hgranted, wake_of_not_granted h hrefusal hgranted⟩

end Waking

theorem mem_of_waiter? {c : Channel α} {number : Nat} {w : Waiter α}
    (h : c.waiter? number = some w) : w ∈ c.waiters ∧ w.number = number :=
  ⟨List.mem_of_find?_eq_some h, by simpa using List.find?_some h⟩

/-! What a send leaves as it is. -/

theorem capacity_send (c : Channel α) (item : α) (cancellable : Bool) :
    (c.send item cancellable).2.capacity = c.capacity := by
  rcases c.send_cases item cancellable with ⟨reason, -, h⟩ | ⟨-, h⟩ | ⟨-, h⟩ <;> rw [h]

theorem closed_send (c : Channel α) (item : α) (cancellable : Bool) :
    (c.send item cancellable).2.closed = c.closed := by
  rcases c.send_cases item cancellable with ⟨reason, -, h⟩ | ⟨-, h⟩ | ⟨-, h⟩ <;> rw [h]

theorem capacity_wake (c : Channel α) (number : Nat) :
    (c.wake number).2.capacity = c.capacity := by
  cases h : c.waiter? number with
  | none => simp only [wake, h]
  | some w =>
      rcases wake_cases h with ⟨reason, -, hwake⟩ | ⟨-, hwake⟩ | ⟨-, hwake⟩ <;> rw [hwake]
      rfl

theorem closed_wake (c : Channel α) (number : Nat) : (c.wake number).2.closed = c.closed := by
  cases h : c.waiter? number with
  | none => simp only [wake, h]
  | some w =>
      rcases wake_cases h with ⟨reason, -, hwake⟩ | ⟨-, hwake⟩ | ⟨-, hwake⟩ <;> rw [hwake]
      rfl

/-! ### The line of sends -/

/-- A send as it joined the line, before room was set aside for it. -/
def joined (w : Waiter α) : Waiter α := { w with granted := false }

def line (c : Channel α) : List (Waiter α) := c.waiters.map joined

def numbers (c : Channel α) : List Nat := c.waiters.map Waiter.number

theorem map_number_joined (waiters : List (Waiter α)) :
    (waiters.map joined).map Waiter.number = waiters.map Waiter.number :=
  List.map_map

theorem map_joined_grantFirst (waiters : List (Waiter α)) :
    (grantFirst waiters).map joined = waiters.map joined := by
  induction waiters with
  | nil => rfl
  | cons w rest ih =>
      rw [grantFirst]
      split
      · rw [List.map_cons, List.map_cons, ih]
      · rfl

theorem map_number_grantFirst (waiters : List (Waiter α)) :
    (grantFirst waiters).map Waiter.number = waiters.map Waiter.number := by
  rw [← map_number_joined, map_joined_grantFirst, map_number_joined]

theorem line_grantAll (c : Channel α) : c.grantAll.line = c.line := by
  unfold grantAll line
  generalize min c.room c.waiters.length = n
  induction n with
  | zero => rfl
  | succ n ih => exact (map_joined_grantFirst _).trans ih

theorem numbers_grantAll (c : Channel α) : c.grantAll.numbers = c.numbers := by
  rw [numbers, ← map_number_joined]
  exact (congrArg _ c.line_grantAll).trans (map_number_joined _)

theorem line_abandon (c : Channel α) (number : Nat) :
    (c.abandon number).line = c.line.filter (·.number != number) := by
  rw [abandon, line_grantAll, line, line, List.filter_map]
  rfl

theorem numbers_abandon (c : Channel α) (number : Nat) :
    (c.abandon number).numbers = c.numbers.filter (· != number) := by
  rw [abandon, numbers_grantAll, numbers, numbers, List.filter_map]
  rfl

theorem line_receive (c : Channel α) : c.receive.2.line = c.line := by
  unfold receive
  split
  · rfl
  · exact line_grantAll _

theorem numbers_receive (c : Channel α) : c.receive.2.numbers = c.numbers := by
  unfold receive
  split
  · rfl
  · exact numbers_grantAll _

/-! ### Room is not left unused -/

/-- No send waits for room while there is some. -/
def IsTight (c : Channel α) : Prop := (∃ w ∈ c.waiters, w.granted = false) → c.room = 0

theorem countP_grantFirst (waiters : List (Waiter α)) :
    (grantFirst waiters).countP Waiter.granted =
      min (waiters.countP Waiter.granted + 1) waiters.length := by
  induction waiters with
  | nil => rfl
  | cons w rest ih =>
      have hle : rest.countP Waiter.granted ≤ rest.length := List.countP_le_length
      rw [grantFirst]
      cases hgranted : w.granted with
      | true =>
          rw [if_pos rfl, List.countP_cons_of_pos hgranted, List.countP_cons_of_pos hgranted, ih,
            List.length_cons]
          omega
      | false =>
          rw [if_neg (by decide), List.countP_cons_of_pos rfl,
            List.countP_cons_of_neg (by rw [hgranted]; decide), List.length_cons]
          omega

theorem length_grantFirst (waiters : List (Waiter α)) :
    (grantFirst waiters).length = waiters.length := by
  rw [← List.length_map (f := Waiter.number), map_number_grantFirst, List.length_map]

theorem countP_repeat_grantFirst (n : Nat) (waiters : List (Waiter α)) :
    (n.repeat grantFirst waiters).countP Waiter.granted =
        min (waiters.countP Waiter.granted + n) waiters.length ∧
      (n.repeat grantFirst waiters).length = waiters.length := by
  induction n with
  | zero =>
      have hle : waiters.countP Waiter.granted ≤ waiters.length := List.countP_le_length
      exact ⟨(Nat.min_eq_left hle).symm, rfl⟩
  | succ n ih =>
      change (grantFirst (n.repeat grantFirst waiters)).countP _ = _ ∧
        (grantFirst (n.repeat grantFirst waiters)).length = _
      rw [countP_grantFirst, length_grantFirst, ih.1, ih.2]
      omega

theorem isTight_grantAll (c : Channel α) : c.grantAll.IsTight := by
  rintro ⟨w, hw, hwaits⟩
  obtain ⟨hcount, hlength⟩ :=
    countP_repeat_grantFirst (min c.room c.waiters.length) c.waiters
  have hsome : c.grantAll.waiters.countP Waiter.granted < c.grantAll.waiters.length := by
    refine Nat.lt_of_le_of_ne List.countP_le_length fun hall => ?_
    rw [List.countP_eq_length.1 hall w hw] at hwaits
    cases hwaits
  change (Nat.repeat grantFirst _ c.waiters).countP _ < (Nat.repeat grantFirst _ c.waiters).length
    at hsome
  change c.capacity - (c.buffer.length + (Nat.repeat grantFirst _ c.waiters).countP _) = 0
  rw [hcount, hlength] at hsome
  rw [hcount]
  unfold room at hsome ⊢
  omega

theorem IsTight.send {c : Channel α} (tight : c.IsTight) (item : α) (cancellable : Bool) :
    (c.send item cancellable).2.IsTight := by
  unfold Channel.send
  split
  · exact tight
  · split
    · next hroom =>
      intro hsome
      exact absurd (tight hsome) (Nat.ne_of_gt hroom)
    · next hroom =>
      intro _
      have hfull : c.room = 0 := by omega
      simpa [room, List.countP_append] using hfull

theorem countP_le_filter {waiters : List (Waiter α)}
    (distinct : (waiters.map Waiter.number).Nodup) (number : Nat) :
    waiters.countP Waiter.granted ≤
      (waiters.filter (·.number != number)).countP Waiter.granted + 1 := by
  induction waiters with
  | nil => exact Nat.zero_le _
  | cons w rest ih =>
      rw [List.map_cons, List.nodup_cons] at distinct
      by_cases hnumber : w.number = number
      · have hrest : rest.filter (·.number != number) = rest := by
          refine List.filter_eq_self.2 fun v hv => bne_iff_ne.2 fun hsame => ?_
          exact distinct.1 (List.mem_map.2 ⟨v, hv, hsame.trans hnumber.symm⟩)
        rw [List.filter_cons_of_neg (by simpa using hnumber), hrest, List.countP_cons]
        split <;> omega
      · rw [List.filter_cons_of_pos (by simpa using hnumber), List.countP_cons, List.countP_cons]
        have hrest := ih distinct.2
        omega

theorem IsTight.wake {c : Channel α} (tight : c.IsTight) (distinct : c.numbers.Nodup)
    (number : Nat) :
    (c.wake number).2.IsTight := by
  cases h : c.waiter? number with
  | none =>
      simp only [Channel.wake, h]
      exact tight
  | some w =>
      rcases wake_cases h with ⟨reason, -, hwake⟩ | ⟨-, hwake⟩ | ⟨-, hwake⟩
      · rw [hwake]
        exact isTight_grantAll _
      · rw [hwake]
        rintro ⟨v, hv, hwaits⟩
        have hfull := tight ⟨v, (List.mem_filter.1 hv).1, hwaits⟩
        have hcount := countP_le_filter distinct number
        simp only [room, List.length_append, List.length_singleton] at hfull ⊢
        omega
      · rw [hwake]
        exact tight

theorem nodup_numbers_send {c : Channel α} (distinct : c.numbers.Nodup)
    (early : ∀ w ∈ c.waiters, w.number < c.nextNumber) (item : α) (cancellable : Bool) :
    (c.send item cancellable).2.numbers.Nodup := by
  rcases c.send_cases item cancellable with ⟨reason, -, h⟩ | ⟨-, h⟩ | ⟨-, h⟩
  · rw [h]
    exact distinct
  · rw [h]
    exact distinct
  · rw [h, numbers, List.map_append, List.nodup_append]
    refine ⟨distinct, List.pairwise_singleton _ _, ?_⟩
    intro number hnumber other hother hsame
    obtain ⟨w, hw, rfl⟩ := List.mem_map.1 hnumber
    rw [List.map_singleton, List.mem_singleton] at hother
    exact absurd (hsame.trans hother) (Nat.ne_of_lt (early w hw))

theorem nodup_numbers_wake {c : Channel α} (distinct : c.numbers.Nodup) (number : Nat) :
    (c.wake number).2.numbers.Nodup := by
  cases h : c.waiter? number with
  | none =>
      simp only [wake, h]
      exact distinct
  | some w =>
      rcases wake_cases h with ⟨reason, -, hwake⟩ | ⟨-, hwake⟩ | ⟨-, hwake⟩
      · rw [hwake, numbers_abandon]
        exact distinct.filter _
      · rw [hwake]
        exact distinct.sublist (List.Sublist.map _ List.filter_sublist)
      · rw [hwake]
        exact distinct

theorem IsTight.receive {c : Channel α} (tight : c.IsTight) : c.receive.2.IsTight := by
  unfold Channel.receive
  split
  · exact tight
  · exact isTight_grantAll _

/-! ### Room is not used twice -/

/-- No more places are filled or set aside than there are. -/
def IsWithin (c : Channel α) : Prop :=
  c.buffer.length + c.waiters.countP Waiter.granted ≤ c.capacity

theorem IsWithin.grantAll {c : Channel α} (within : c.IsWithin) : c.grantAll.IsWithin := by
  have hcount := (countP_repeat_grantFirst (min c.room c.waiters.length) c.waiters).1
  change c.buffer.length + (Nat.repeat grantFirst _ c.waiters).countP _ ≤ c.capacity
  unfold IsWithin at within
  rw [hcount]
  unfold room
  omega

theorem IsWithin.abandon {c : Channel α} (within : c.IsWithin) (number : Nat) :
    (c.abandon number).IsWithin := by
  refine IsWithin.grantAll ?_
  have hfewer : (c.waiters.filter (·.number != number)).countP Waiter.granted ≤
      c.waiters.countP Waiter.granted := List.Sublist.countP_le List.filter_sublist
  exact Nat.le_trans (Nat.add_le_add_left hfewer _) within

theorem IsWithin.send {c : Channel α} (within : c.IsWithin) (item : α) (cancellable : Bool) :
    (c.send item cancellable).2.IsWithin := by
  unfold Channel.send
  split
  · exact within
  · split
    · next hroom =>
      simp only [room] at hroom
      simp only [IsWithin, List.length_append, List.length_singleton]
      omega
    · simpa [IsWithin, List.countP_append] using within

theorem countP_filter_lt {waiters : List (Waiter α)} {w : Waiter α} (hw : w ∈ waiters)
    (granted : w.granted = true) :
    (waiters.filter (·.number != w.number)).countP Waiter.granted <
      waiters.countP Waiter.granted := by
  have hsplit := List.countP_eq_countP_filter_add waiters Waiter.granted
    (·.number != w.number)
  have hrest : 0 < (waiters.filter fun v => !(v.number != w.number)).countP Waiter.granted :=
    List.countP_pos_iff.2 ⟨w, List.mem_filter.2 ⟨hw, by simp⟩, granted⟩
  omega

theorem IsWithin.wake {c : Channel α} (within : c.IsWithin) (number : Nat) :
    (c.wake number).2.IsWithin := by
  unfold Channel.wake
  split
  · exact within
  · next w hwaits =>
    obtain ⟨hw, rfl⟩ := mem_of_waiter? hwaits
    split
    · exact within.abandon _
    · split
      · next granted =>
        have hfewer := countP_filter_lt hw granted
        simp only [IsWithin, List.length_append, List.length_singleton] at within ⊢
        omega
      · exact within

theorem IsWithin.receive {c : Channel α} (within : c.IsWithin) : c.receive.2.IsWithin := by
  unfold Channel.receive
  split
  · exact within
  · next item rest hbuffer =>
    refine IsWithin.grantAll ?_
    simp only [IsWithin, hbuffer, List.length_cons] at within ⊢
    omega

theorem IsWithin.close {c : Channel α} (within : c.IsWithin) : c.close.IsWithin := by
  change [].length + _ ≤ c.capacity
  exact Nat.le_trans (Nat.add_le_add_right (Nat.zero_le _) _) within

/-! ### Whatever is done -/

/-- What nothing that is done to a channel breaks. -/
structure IsKept (p : Channel α → Prop) : Prop where
  send : ∀ c item cancellable, p c → p (c.send item cancellable).2
  wake : ∀ c number, p c → p (c.wake number).2
  abandon : ∀ c number, p c → p (c.abandon number)
  receive : ∀ c, p c → p c.receive.2
  cancel : ∀ c, p c → p c.cancel
  shut : ∀ c, p c → p { c with closed := true }
  close : ∀ c, p c → p c.close

theorem isKept_capacity (capacity : Nat) :
    IsKept (α := α) fun c => c.capacity = capacity where
  send c item cancellable h := (c.capacity_send item cancellable).trans h
  wake c number h := (c.capacity_wake number).trans h
  abandon _ _ h := h
  receive c h := by
    unfold Channel.receive
    split <;> exact h
  cancel _ h := h
  shut _ h := h
  close _ h := h

theorem isKept_isWithin : IsKept (α := α) Channel.IsWithin where
  send _ item cancellable h := h.send item cancellable
  wake _ number h := h.wake number
  abandon _ number h := h.abandon number
  receive _ h := h.receive
  cancel _ h := h
  shut _ h := h
  close _ h := h.close

theorem isKept_cancelled : IsKept (α := α) fun c => c.cancelled = true where
  send c item cancellable h := by
    rcases c.send_cases item cancellable with ⟨reason, -, hsend⟩ | ⟨-, hsend⟩ | ⟨-, hsend⟩ <;>
      rw [hsend] <;> exact h
  wake c number h := by
    cases hw : c.waiter? number with
    | none =>
        simp only [Channel.wake, hw]
        exact h
    | some w =>
        rcases wake_cases hw with ⟨reason, -, hwake⟩ | ⟨-, hwake⟩ | ⟨-, hwake⟩ <;>
          rw [hwake] <;> exact h
  abandon _ _ h := h
  receive c h := by
    unfold Channel.receive
    split <;> exact h
  cancel _ _ := rfl
  shut _ h := h
  close _ h := h

end ManifestRelay.Stream.Channel
