import ManifestRelay.Proofs.Stream.Traffic

/-!
# Streams that are cancelled

What was told to a call stays so, whatever is done to its stream afterwards.  Once a stream is
cancelled no frame gets in, and every send of a frame that is not over is refused when it looks
again, even where there is room.
-/

namespace ManifestRelay.Stream

namespace Traffic

variable {φ : Type}

/-- What was told to a call is not taken back. -/
def Confirms (s t : Traffic φ) : Prop :=
  ∀ (place : Nat) (call : Call φ), s.calls[place]? = some call → call.waiter? = none →
    t.calls[place]? = some call

structure Halts (s : Traffic φ) (later : List (Act φ)) (t : Traffic φ) : Prop where
  frames : t.frames = s.frames
  /-- The send of a frame that was not over is refused when it looks, or was given up before. -/
  waiting : ∀ place frame number, s.calls[place]? = some ⟨.ok frame, .waiting number⟩ →
    t.calls[place]? = some ⟨.ok frame, .refused .cancelled⟩ ∨
    (t.calls[place]? = some ⟨.ok frame, .abandoned⟩ ∧ .abandon place ∈ later) ∨
    (t.calls[place]? = some ⟨.ok frame, .waiting number⟩ ∧ .look place ∉ later)
  begun : ∀ place frame fate, s.calls.length ≤ place →
    t.calls[place]? = some ⟨.ok frame, fate⟩ → fate = .refused .cancelled

/-! ### Calls that are over -/

namespace Leads

variable {s t : Traffic φ} {place other : Nat} {item : Except Status φ}

theorem settles (leads : Leads t place item s) :
    ∃ fate, Settles t.calls place item fate s.calls := by
  cases leads with
  | kept settles => exact ⟨_, settles⟩
  | put settles => exact ⟨_, settles⟩

theorem getElem?_of_ne (leads : Leads t place item s) (h : other ≠ place) :
    s.calls[other]? = t.calls[other]? := by
  obtain ⟨fate, settles⟩ := leads.settles
  rw [settles.eq_ite, if_neg h]

theorem item_eq (leads : Leads t place item s) {call : Call φ}
    (h : s.calls[place]? = some call) : call.item = item := by
  obtain ⟨fate, settles⟩ := leads.settles
  cases settles.getElem?_self.symm.trans h
  rfl

theorem confirms (leads : Leads t place item s) : t.Confirms s := by
  obtain ⟨fate, settles⟩ := leads.settles
  exact fun other call hcall ended => settles.getElem?_of_over hcall ended

end Leads

theorem Confirms.refl (t : Traffic φ) : t.Confirms t := fun _ _ hcall _ => hcall

theorem Confirms.trans {r s t : Traffic φ} (first : r.Confirms s) (second : s.Confirms t) :
    r.Confirms t :=
  fun place call hcall ended => second place call (first place call hcall ended) ended

theorem leads_perform {t : Traffic φ} (aligned : t.IsAligned) (act : Act φ) :
    ((t.perform act).calls = t.calls ∧ (t.perform act).completed = t.completed) ∨
      ∃ place item, Leads t place item (t.perform act) ∧
        (act = .send item ∧ place = t.calls.length ∨
          ((act = .look place ∨ act = .abandon place) ∧
            ∃ number, t.calls[place]? = some ⟨item, .waiting number⟩)) := by
  cases act with
  | send item => exact .inr ⟨_, item, leads_send t item, .inl ⟨rfl, rfl⟩⟩
  | look place =>
      rcases leads_look aligned place with hsame | ⟨item, number, hwaits, leads⟩
      · exact .inl ⟨congrArg Traffic.calls hsame, congrArg Traffic.completed hsame⟩
      · exact .inr ⟨place, item, leads, .inr ⟨.inl rfl, number, hwaits⟩⟩
  | abandon place =>
      rcases leads_abandon t place with hsame | ⟨item, number, hwaits, leads⟩
      · exact .inl ⟨congrArg Traffic.calls hsame, congrArg Traffic.completed hsame⟩
      · exact .inr ⟨place, item, leads, .inr ⟨.inr rfl, number, hwaits⟩⟩
  | read | cancel | shut | depart => exact .inl ⟨rfl, rfl⟩

theorem confirms_perform {t : Traffic φ} (aligned : t.IsAligned) (act : Act φ) :
    t.Confirms (t.perform act) := by
  rcases leads_perform aligned act with ⟨hcalls, -⟩ | ⟨place, item, leads, -⟩
  · exact fun other call hcall _ => hcalls ▸ hcall
  · exact leads.confirms

theorem IsSound.confirms_run {capacity : Nat} {t : Traffic φ} (sound : t.IsSound capacity)
    (acts : List (Act φ)) : t.Confirms (acts.foldl Traffic.perform t) := by
  induction acts generalizing t with
  | nil => exact .refl t
  | cons act rest ih => exact (confirms_perform sound.aligned act).trans (ih (sound.perform act))

/-! ### After the stream was cancelled -/

section Cancelled

variable {capacity : Nat} {t : Traffic φ} (sound : t.IsSound capacity)
  (cancelled : t.channel.cancelled = true)

include cancelled

theorem refusal_of_cancelled : t.channel.refusal true = some .cancelled := by
  rw [Channel.refusal, cancelled]
  rfl

theorem getElem?_send_of_cancelled (frame : φ) :
    (t.send (.ok frame)).calls[t.calls.length]? = some ⟨.ok frame, .refused .cancelled⟩ := by
  have hrefusal : t.channel.refusal (isFrame (.ok frame)) = some .cancelled :=
    refusal_of_cancelled cancelled
  rw [send, Channel.send_of_refusal hrefusal]
  exact List.getElem?_concat_length

include sound

theorem frames_perform_of_cancelled (act : Act φ) : (t.perform act).frames = t.frames := by
  unfold frames
  rcases leads_perform sound.aligned act with ⟨hcalls, hcompleted⟩ | ⟨place, item, leads, -⟩
  · rw [sent, hcalls, hcompleted]
    rfl
  · rcases sound.counted.sent_of_leads leads with hsent | ⟨hrefusal, hsent⟩
    · rw [hsent]
    · have hstatus : isFrame item = false := by
        by_contra hframe
        rw [Bool.not_eq_false] at hframe
        rw [hframe, refusal_of_cancelled cancelled] at hrefusal
        cases hrefusal
      rw [hsent, List.filter_append, List.filter_cons_of_neg (by rw [hstatus]; decide),
        List.filter_nil, List.append_nil]

theorem getElem?_look_of_cancelled {place number : Nat} {frame : φ}
    (h : t.calls[place]? = some ⟨.ok frame, .waiting number⟩) :
    (t.look place).calls[place]? = some ⟨.ok frame, .refused .cancelled⟩ := by
  have hrefusal := refusal_of_cancelled cancelled
  have hlt : place < t.calls.length := (List.getElem?_eq_some_iff.1 h).1
  rcases look_cases sound.aligned (waiting?_eq_some_iff.2 h) with
    ⟨reason, hreason, hlook⟩ | ⟨hnone, -⟩ | ⟨hnone, -⟩
  · cases hrefusal.symm.trans hreason
    rw [hlook]
    exact List.getElem?_set_self hlt
  · cases hrefusal.symm.trans hnone
  · cases hrefusal.symm.trans hnone

end Cancelled

theorem getElem?_abandon {t : Traffic φ} {place number : Nat} {item : Except Status φ}
    (h : t.calls[place]? = some ⟨item, .waiting number⟩) :
    (t.abandon place).calls[place]? = some ⟨item, .abandoned⟩ := by
  simp only [abandon, waiting?_eq_some_iff.2 h]
  exact List.getElem?_set_self (List.getElem?_eq_some_iff.1 h).1

theorem getElem?_perform_of_ne {t : Traffic φ} (aligned : t.IsAligned) {act : Act φ} {place : Nat}
    {call : Call φ} (h : t.calls[place]? = some call) (look : act ≠ .look place)
    (abandon : act ≠ .abandon place) : (t.perform act).calls[place]? = some call := by
  rcases leads_perform aligned act with
    ⟨hcalls, -⟩ | ⟨other, item, leads, ⟨-, hnew⟩ | ⟨hlook | habandon, -⟩⟩
  · rw [hcalls, h]
  · have hlt := (List.getElem?_eq_some_iff.1 h).1
    rw [leads.getElem?_of_ne (by omega), h]
  · rw [leads.getElem?_of_ne ?_, h]
    rintro rfl
    exact look hlook
  · rw [leads.getElem?_of_ne ?_, h]
    rintro rfl
    exact abandon habandon

namespace Halts

variable {capacity : Nat} {s t : Traffic φ} {later : List (Act φ)}

theorem refl (t : Traffic φ) : t.Halts [] t where
  frames := rfl
  waiting _ _ _ h := .inr (.inr ⟨h, List.not_mem_nil⟩)
  begun place frame fate hlate h := absurd (List.getElem?_eq_some_iff.1 h).1 (by omega)

section Step

variable (halts : s.Halts later t) (sound : t.IsSound capacity)
  (cancelled : t.channel.cancelled = true) (act : Act φ)

include halts sound cancelled

theorem waiting_step {place number : Nat} {frame : φ}
    (h : s.calls[place]? = some ⟨.ok frame, .waiting number⟩) :
    (t.perform act).calls[place]? = some ⟨.ok frame, .refused .cancelled⟩ ∨
    ((t.perform act).calls[place]? = some ⟨.ok frame, .abandoned⟩ ∧
      .abandon place ∈ later ++ [act]) ∨
    ((t.perform act).calls[place]? = some ⟨.ok frame, .waiting number⟩ ∧
      .look place ∉ later ++ [act]) := by
  have hconfirms := confirms_perform sound.aligned act
  rcases halts.waiting place frame number h with hover | ⟨hover, hgiven⟩ | ⟨hwaits, hunseen⟩
  · exact .inl (hconfirms place _ hover rfl)
  · exact .inr (.inl ⟨hconfirms place _ hover rfl, List.mem_append_left _ hgiven⟩)
  · by_cases hlook : act = .look place
    · rw [hlook]
      exact .inl (getElem?_look_of_cancelled sound cancelled hwaits)
    by_cases habandon : act = .abandon place
    · rw [habandon]
      exact .inr (.inl ⟨getElem?_abandon hwaits, List.mem_append_right _ List.mem_cons_self⟩)
    · refine .inr (.inr ⟨getElem?_perform_of_ne sound.aligned hwaits hlook habandon, ?_⟩)
      intro hmem
      rcases List.mem_append.1 hmem with hmem | hmem
      · exact hunseen hmem
      · exact hlook (List.mem_singleton.1 hmem).symm

theorem begun_step {place : Nat} {frame : φ} {fate : Fate} (hlate : s.calls.length ≤ place)
    (h : (t.perform act).calls[place]? = some ⟨.ok frame, fate⟩) :
    fate = .refused .cancelled := by
  rcases leads_perform sound.aligned act with
    ⟨hcalls, -⟩ | ⟨other, item, leads, hact⟩
  · exact halts.begun place frame fate hlate (hcalls ▸ h)
  · by_cases hsame : place = other
    · subst hsame
      have hitem := leads.item_eq h
      subst hitem
      rcases hact with ⟨rfl, rfl⟩ | ⟨-, number, hwaits⟩
      · cases h.symm.trans (getElem?_send_of_cancelled cancelled frame)
        rfl
      · cases halts.begun place frame _ hlate hwaits
    · exact halts.begun place frame fate hlate (leads.getElem?_of_ne hsame ▸ h)

theorem step : s.Halts (later ++ [act]) (t.perform act) where
  frames := (frames_perform_of_cancelled sound cancelled act).trans halts.frames
  waiting _ _ _ h := halts.waiting_step sound cancelled act h
  begun _ _ _ hlate h := halts.begun_step sound cancelled act hlate h

end Step

theorem of_run (sound : s.IsSound capacity) (cancelled : s.channel.cancelled = true)
    (later : List (Act φ)) : s.Halts later (later.foldl perform s) := by
  induction later using List.reverseRecOn with
  | nil => exact .refl s
  | append_singleton later act ih =>
      rw [List.foldl_append]
      exact ih.step (sound.run later) (channel_run Channel.isKept_cancelled cancelled later) act

end Halts

end Traffic

open Traffic

/-- Whatever is done to a stream in whatever order, what was received is the beginning of what was
sent; a call that was refused or abandoned has nothing in it, now or later; no more items are
under way than there is room for; and after a cancellation no frame gets in, and every send of a
frame that was not over, or begins, is refused as cancelled. -/
theorem frames_arrive_in_order {φ : Type} (capacity : Nat) (before later : List (Act φ)) :
    (after capacity before).IsOrderly capacity ∧
    (after capacity before).Confirms (after capacity (before ++ later)) ∧
    (after capacity (before ++ [.cancel])).Halts later
      (after capacity (before ++ .cancel :: later)) := by
  have sound := isSound_after capacity before
  refine ⟨sound.isOrderly, ?_, ?_⟩
  · rw [after_append]
    exact sound.confirms_run later
  · have hcancelled : (after capacity (before ++ [.cancel])).channel.cancelled = true := by
      rw [after_append]
      rfl
    have hlater : after capacity (before ++ .cancel :: later) =
        later.foldl perform (after capacity (before ++ [.cancel])) := by
      rw [List.append_cons, after_append]
    rw [hlater]
    exact .of_run (isSound_after capacity _) hcancelled later

/-- A send that waited is refused though the reader has made room for it. -/
example : (after (φ := Nat) 1 [.send (.ok 1), .send (.ok 2), .read, .cancel, .look 1]).calls.map
    Call.fate = [.sent, .refused .cancelled] := by
  decide

end ManifestRelay.Stream
