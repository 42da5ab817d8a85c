import Mathlib.Data.List.Nodup
import ManifestRelay.Proofs.Service.Serving

/-!
# Every served stream can be read to its end

Once its session has returned, a stream has an end that its reader comes to by reading on: sends
that the session has left behind are dropped, what is on the way is read, the status of a failure
gets its room, and nothing follows.
-/

namespace ManifestRelay.Service

open ManifestRelay.Stream

theorem Stage.progress_of_returned {result : Except Status Unit} {progress : Option Progress}
    {status : Status} {number : Nat}
    (h : Stage.returned result progress = .ending status number) :
    progress = some (.waiting number) := by
  unfold Stage.returned at h
  split at h
  · cases h
    rfl
  · cases h

namespace Served

variable {φ : Type}

/-- What it takes that no send holds a stream up for ever. -/
structure IsLive (delivery : Delivery φ) (stage : Stage) : Prop where
  roomy : 0 < delivery.capacity
  distinct : delivery.numbers.Nodup
  tight : delivery.closed = false → delivery.IsTight
  present : ∀ status number, stage = .ending status number → number ∈ delivery.numbers

namespace IsLive

variable {delivery : Delivery φ} {stage : Stage}

theorem send (live : IsLive delivery stage)
    (early : ∀ w ∈ delivery.waiters, w.number < delivery.nextNumber)
    (item : Except Status φ) (cancellable : Bool) {next : Stage}
    (present : ∀ status number, next = .ending status number →
      (delivery.send item cancellable).1 = .waiting number) :
    IsLive (delivery.send item cancellable).2 next where
  roomy := by
    rw [Channel.capacity_send]
    exact live.roomy
  distinct := Channel.nodup_numbers_send live.distinct early item cancellable
  tight hopen := by
    rw [Channel.closed_send] at hopen
    exact (live.tight hopen).send item cancellable
  present status number hnext := by
    have hwaits := present status number hnext
    rcases delivery.send_cases item cancellable with ⟨reason, -, h⟩ | ⟨-, h⟩ | ⟨-, h⟩
    · rw [h] at hwaits
      cases hwaits
    · rw [h] at hwaits
      cases hwaits
    · rw [h] at hwaits ⊢
      cases hwaits
      simp [Channel.numbers]

theorem wake (live : IsLive delivery stage) (number : Nat) {next : Stage}
    (present : ∀ status own, next = .ending status own →
      own ∈ (delivery.wake number).2.numbers) : IsLive (delivery.wake number).2 next where
  roomy := by
    rw [Channel.capacity_wake]
    exact live.roomy
  distinct := Channel.nodup_numbers_wake live.distinct number
  tight hopen := by
    rw [Channel.closed_wake] at hopen
    exact (live.tight hopen).wake live.distinct number
  present := present

theorem abandon (live : IsLive delivery stage) {number : Nat}
    (other : ∀ status own, stage = .ending status own → own ≠ number) :
    IsLive (delivery.abandon number) stage where
  roomy := live.roomy
  distinct := by
    rw [Channel.numbers_abandon]
    exact live.distinct.filter _
  tight _ := Channel.isTight_grantAll _
  present status own hstage := by
    rw [Channel.numbers_abandon, List.mem_filter]
    exact ⟨live.present status own hstage, bne_iff_ne.2 (other status own hstage)⟩

theorem receive (live : IsLive delivery stage) (here : delivery.closed = false) :
    IsLive delivery.receive.2 stage where
  roomy := by
    unfold Channel.receive
    split <;> exact live.roomy
  distinct := by
    rw [Channel.numbers_receive]
    exact live.distinct
  tight _ := (live.tight here).receive
  present status own hstage := by
    rw [Channel.numbers_receive]
    exact live.present status own hstage

theorem close (live : IsLive delivery stage) : IsLive delivery.close stage :=
  ⟨live.roomy, live.distinct, nofun, live.present⟩

end IsLive

variable {s : Served φ}

theorem delivery_note (s : Served φ) (item : Except Status φ)
    (looked : Option Progress × Delivery φ) :
    (s.note item looked).delivery = looked.2 ∧ (s.note item looked).stage = s.stage := by
  unfold note
  split <;> exact ⟨rfl, rfl⟩

theorem isLive_send (live : IsLive s.delivery s.stage) (sound : s.IsSound) (frame : φ) :
    IsLive (s.send frame).delivery (s.send frame).stage := by
  unfold send
  split
  · next running =>
    obtain ⟨hdelivery, hstage⟩ := s.delivery_note (.ok frame)
      (some (s.delivery.sendFrame frame).1, (s.delivery.sendFrame frame).2)
    rw [hdelivery, hstage]
    refine live.send sound.early _ _ fun status number hending => ?_
    rw [running] at hending
    cases hending
  · exact live
  · exact live

theorem isLive_finish (live : IsLive s.delivery s.stage) (sound : s.IsSound)
    (result : Except Status Unit) :
    IsLive (s.finish result).delivery (s.finish result).stage := by
  unfold finish
  split
  · cases result with
    | ok => exact ⟨live.roomy, live.distinct, live.tight, nofun⟩
    | error status =>
        refine live.send sound.early (.error status) false fun _ _ hending => ?_
        exact Option.some.inj (Stage.progress_of_returned hending)
  · exact live
  · exact live

theorem isLive_look (live : IsLive s.delivery s.stage) (number : Nat) :
    IsLive (s.look number).delivery (s.look number).stage := by
  unfold look
  split
  · exact live
  · next w h =>
    split
    · next running =>
      obtain ⟨hdelivery, hstage⟩ := s.delivery_note w.item (s.delivery.wake number)
      rw [hdelivery, hstage]
      refine live.wake number fun status own hending => ?_
      rw [running] at hending
      cases hending
    · next status own ending =>
      split
      · next hown =>
        subst hown
        refine live.wake number fun _ other hending => ?_
        have hwaits : (s.delivery.wake number).1 = some (.waiting other) :=
          Stage.progress_of_returned hending
        rcases Channel.wake_cases h with ⟨reason, -, hwake⟩ | ⟨-, hwake⟩ | ⟨-, hwake⟩
        · rw [hwake] at hwaits
          cases hwaits
        · rw [hwake] at hwaits
          cases hwaits
        · rw [hwake] at hwaits ⊢
          cases hwaits
          exact live.present status number ending
      · exact live
    · exact live

theorem isLive_drop (live : IsLive s.delivery s.stage) (number : Nat) :
    IsLive (s.drop number).delivery (s.drop number).stage := by
  unfold drop
  split
  · next status own ending =>
    split
    · exact live
    · next hother =>
      refine live.abandon fun _ other hending => ?_
      rw [ending] at hending
      cases hending
      exact Ne.symm hother
  · next running =>
    refine live.abandon fun _ _ hending => ?_
    rw [running] at hending
    cases hending
  · next finished =>
    refine live.abandon fun _ _ hending => ?_
    rw [finished] at hending
    cases hending

theorem isLive_read (live : IsLive s.delivery s.stage) :
    IsLive s.read.delivery s.read.stage := by
  unfold read
  split
  · exact live
  · next hclosed =>
    have hreceive := live.receive (Bool.eq_false_iff.2 hclosed)
    split
    · next item delivery h =>
      rw [h] at hreceive
      exact hreceive
    · exact live

theorem isLive_perform (live : IsLive s.delivery s.stage) (sound : s.IsSound) (act : Act φ) :
    IsLive (s.perform act).delivery (s.perform act).stage := by
  cases act with
  | send frame => exact isLive_send live sound frame
  | look number => exact isLive_look live number
  | drop number => exact isLive_drop live number
  | finish result => exact isLive_finish live sound result
  | read => exact isLive_read live
  | leave => exact live.close
  | cancel => exact ⟨live.roomy, live.distinct, live.tight, live.present⟩

theorem isLive_after (acts : List (Act φ)) :
    IsLive (after acts : Served φ).delivery (after acts : Served φ).stage := by
  suffices h : ∀ s : Served φ, s.IsSound → IsLive s.delivery s.stage →
      IsLive (acts.foldl perform s).delivery (acts.foldl perform s).stage from
    h _ .opened ⟨Nat.succ_pos 3, List.nodup_nil, fun _ => nofun, nofun⟩
  induction acts with
  | nil => exact fun s _ live => live
  | cons act rest ih =>
      exact fun s sound live => ih _ (sound.perform act) (isLive_perform live sound act)

/-! ### Reading on -/

def CanReach (s : Served φ) (p : Served φ → Prop) : Prop :=
  ∃ more : List (Act φ), p (more.foldl perform s)

theorem CanReach.perform {p : Served φ → Prop} (act : Act φ)
    (h : (s.perform act).CanReach p) : s.CanReach p := by
  obtain ⟨more, hmore⟩ := h
  exact ⟨act :: more, hmore⟩

theorem read_of_buffer (here : s.delivery.closed = false) {item : Except Status φ}
    {rest : List (Except Status φ)} (h : s.delivery.buffer = item :: rest) :
    s.read = { s with
      delivery := Channel.grantAll { s.delivery with buffer := rest }
      yielded := s.yielded ++ [item] } := by
  simp [read, here, Channel.receive, h]

/-- A reader that reads on comes to the end of a stream whose session has finished. -/
theorem canReach_end_of_isFinished (finished : s.stage.isFinished = true)
    (here : s.delivery.closed = false) : s.CanReach fun t => t.hasEnded = true := by
  induction hbuffer : s.delivery.buffer generalizing s with
  | nil =>
      refine ⟨[.read], ?_⟩
      simp [Served.perform, read, here, Channel.receive, hbuffer, finished]
  | cons item rest ih =>
      refine .perform .read ?_
      rw [Served.perform, read_of_buffer here hbuffer]
      exact ih finished here rfl

theorem look_of_buffer_eq_nil (sound : s.IsSound) (live : IsLive s.delivery s.stage)
    (here : s.delivery.closed = false) {status : Status} {number : Nat}
    (ending : s.stage = .ending status number)
    (alone : ∀ other ∈ s.delivery.numbers, other = number) (empty : s.delivery.buffer = []) :
    (s.look number).stage.isFinished = true ∧ (s.look number).delivery.closed = false := by
  obtain ⟨v, hv, hnumber⟩ := List.mem_map.1 (live.present status number ending)
  obtain ⟨w, hw⟩ : ∃ w, s.delivery.waiter? number = some w :=
    Option.isSome_iff_exists.1 (List.find?_isSome.2 ⟨v, hv, by simpa using hnumber⟩)
  obtain ⟨hmem, hown⟩ := Channel.mem_of_waiter? hw
  have hlook : s.look number =
      s.conclude (.error status) (s.delivery.wake number) := by
    simp only [look, hw, ending, if_true]
  have hawaited := sound.awaited w hmem
  rw [ending] at hawaited
  obtain ⟨-, hfinal⟩ := hawaited hown
  rw [hlook]
  rcases Channel.wake_cases hw with ⟨reason, hrefusal, -⟩ | ⟨-, hwake⟩ | ⟨hwaits, -⟩
  · rw [hfinal] at hrefusal
    have hclosed := Channel.closed_of_refusal hrefusal
    rw [here] at hclosed
    cases hclosed
  · rw [hwake]
    exact ⟨rfl, here⟩
  · -- It cannot wait, as all the room is there for it.
    have hfull := live.tight here ⟨w, hmem, hwaits⟩
    have hnone : s.delivery.waiters.countP Waiter.granted = 0 := by
      refine List.countP_eq_zero.2 fun other hother => ?_
      have hsame : other.number = w.number :=
        (alone _ (List.mem_map_of_mem hother)).trans hown.symm
      rw [List.inj_on_of_nodup_map live.distinct hother hmem hsame, hwaits]
      decide
    have hroomy := live.roomy
    rw [Channel.room, empty, hnone, List.length_nil] at hfull
    omega

theorem canReach_end_of_alone (sound : s.IsSound) (live : IsLive s.delivery s.stage)
    (here : s.delivery.closed = false) {status : Status} {number : Nat}
    (ending : s.stage = .ending status number)
    (alone : ∀ other ∈ s.delivery.numbers, other = number) :
    s.CanReach fun t => t.hasEnded = true := by
  induction hbuffer : s.delivery.buffer generalizing s with
  | nil =>
      obtain ⟨hfinished, hhere⟩ := look_of_buffer_eq_nil sound live here ending alone hbuffer
      exact .perform (.look number) (canReach_end_of_isFinished hfinished hhere)
  | cons item rest ih =>
      have hread := read_of_buffer here hbuffer
      have hsound := sound.read
      have hlive := isLive_read live
      rw [hread] at hsound hlive
      refine .perform .read ?_
      rw [Served.perform, hread]
      refine ih hsound hlive here ending (fun other hother => alone other ?_) rfl
      rw [Channel.numbers_grantAll] at hother
      exact hother

/-- Sends that the session has left behind are dropped before anything else. -/
theorem canReach_end_of_ending (sound : s.IsSound) (live : IsLive s.delivery s.stage)
    (here : s.delivery.closed = false) {status : Status} {number : Nat}
    (ending : s.stage = .ending status number) : s.CanReach fun t => t.hasEnded = true := by
  induction hlength : s.delivery.numbers.length using Nat.strongRecOn generalizing s with
  | ind n ih =>
  by_cases halone : ∀ other ∈ s.delivery.numbers, other = number
  · exact canReach_end_of_alone sound live here ending halone
  · obtain ⟨other, hother, hne⟩ : ∃ other ∈ s.delivery.numbers, other ≠ number := by
      simpa using halone
    have hdrop : s.drop other = { s with delivery := s.delivery.abandon other } := by
      simp only [drop, ending, if_neg hne]
    have hsound := sound.drop other
    have hlive := isLive_drop live other
    rw [hdrop] at hsound hlive
    refine .perform (.drop other) ?_
    rw [Served.perform, hdrop]
    refine ih _ ?_ hsound hlive here ending rfl
    rw [← hlength, Channel.numbers_abandon]
    exact List.length_filter_lt_length_iff_exists.2 ⟨other, hother, by simp⟩

/-! ### What a stream yields -/

theorem error_not_mem (frames : List φ) (status : Status) :
    .error status ∉ frames.map (Except.ok (ε := Status)) := by
  simp

theorem IsSound.yielded_cases (sound : s.IsSound) : s.yielded <+: s.sent.map .ok ∨
    ∃ status, s.stage.result? = some (.error status) ∧
      s.yielded = s.sent.map .ok ++ [.error status] := by
  have hyielded := sound.yielded
  cases hstage : s.stage with
  | running | ending =>
      rw [due_of_not_isFinished (by rw [hstage]; rfl)] at hyielded
      exact .inl hyielded
  | finished result =>
      simp only [due, lastItems, hstage] at hyielded
      cases result with
      | ok => exact .inl (by simpa [Delivery.lastItem] using hyielded)
      | error status =>
          rcases List.prefix_concat_iff.1 hyielded with hall | hpart
          · exact .inr ⟨status, rfl, hall⟩
          · exact .inl hpart

theorem IsSound.yielded_of_hasEnded (sound : s.IsSound) (ended : s.hasEnded = true) :
    ∃ result, s.stage.result? = some result ∧
      s.yielded = s.sent.map .ok ++ (Delivery.lastItem result).toList ∧
      ((∀ status, .error status ∉ s.yielded) ↔ result = .ok ()) := by
  obtain ⟨hfinished, hyielded⟩ := sound.ended ended
  cases hstage : s.stage with
  | running | ending =>
      rw [hstage] at hfinished
      cases hfinished
  | finished result =>
      simp only [due, lastItems, hstage] at hyielded
      refine ⟨result, rfl, hyielded, ?_⟩
      rw [hyielded]
      cases result with
      | ok => simp [Delivery.lastItem]
      | error status => simp [Delivery.lastItem]

theorem yielded_perform (s : Served φ) (act : Act φ) : s.yielded <+: (s.perform act).yielded := by
  have hnote : ∀ item (looked : Option Progress × Delivery φ),
      (s.note item looked).yielded = s.yielded := by
    intro item looked
    unfold note
    split <;> rfl
  cases act with
  | send frame =>
      simp only [perform, send]
      split
      · exact (hnote _ _).symm ▸ List.prefix_refl _
      · exact List.prefix_refl _
      · exact List.prefix_refl _
  | look number =>
      simp only [perform, look]
      split
      · exact List.prefix_refl _
      · split
        · exact (hnote _ _).symm ▸ List.prefix_refl _
        · split <;> exact List.prefix_refl _
        · exact List.prefix_refl _
  | drop number =>
      simp only [perform, drop]
      split
      · split <;> exact List.prefix_refl _
      · exact List.prefix_refl _
      · exact List.prefix_refl _
  | finish result =>
      simp only [perform, finish]
      split <;> exact List.prefix_refl _
  | read =>
      simp only [perform, read]
      split
      · exact List.prefix_refl _
      · split
        · exact List.prefix_append _ _
        · exact List.prefix_refl _
  | leave => exact List.prefix_refl _
  | cancel => exact List.prefix_refl _

theorem yielded_foldl (s : Served φ) (more : List (Act φ)) :
    s.yielded <+: (more.foldl perform s).yielded := by
  induction more generalizing s with
  | nil => exact List.prefix_refl _
  | cons act rest ih => exact (s.yielded_perform act).trans (ih _)

theorem IsSound.yielded_of_error_mem (sound : s.IsSound) {status : Status}
    (h : .error status ∈ s.yielded) {t : Served φ} (sound' : t.IsSound)
    (later : s.yielded <+: t.yielded) : t.yielded = s.yielded := by
  have hlast : ∀ {u : Served φ}, u.IsSound → .error status ∈ u.yielded →
      ∃ last, u.yielded = u.sent.map .ok ++ [.error last] := by
    intro u hu hmem
    rcases hu.yielded_cases with hpart | ⟨last, -, hall⟩
    · exact absurd (hpart.subset hmem) (error_not_mem _ _)
    · exact ⟨last, hall⟩
  obtain ⟨last, hs⟩ := hlast sound h
  obtain ⟨_, ht⟩ := hlast sound' (later.subset h)
  rw [ht] at later ⊢
  rcases List.prefix_concat_iff.1 later with hsame | hpart
  · exact hsame.symm
  · rw [hs] at hpart
    have hmem := hpart.subset (List.mem_append_right _ (List.mem_singleton.2 rfl))
    exact absurd hmem (error_not_mem _ last)

/-- Whatever a session and its reader do, and whenever a stream is cancelled, the stream yields the
frames that were sent in the order in which they were sent, and then at most the status that the
session has returned, and nothing behind it.  At its end, all frames have been yielded, and a
status if and only if the session has failed.  A reader that stays after the session has returned
can come to the end. -/
theorem yields_what_was_sent (acts : List (Act φ)) :
    let s := after acts
    (s.yielded <+: s.sent.map .ok ∨ ∃ status, s.stage.result? = some (.error status) ∧
      s.yielded = s.sent.map .ok ++ [.error status]) ∧
    (∀ status, .error status ∈ s.yielded →
      ∀ more, (after (acts ++ more)).yielded = s.yielded) ∧
    (s.hasEnded = true → ∃ result, s.stage.result? = some result ∧
      s.yielded = s.sent.map .ok ++ (Delivery.lastItem result).toList ∧
      ((∀ status, .error status ∉ s.yielded) ↔ result = .ok ())) ∧
    (s.stage.result?.isSome = true → s.delivery.closed = false →
      ∃ more, (after (acts ++ more)).hasEnded = true) := by
  intro s
  have hsound : s.IsSound := isSound_after acts
  have hafter : ∀ more, after (acts ++ more) = more.foldl perform s := fun _ => List.foldl_append
  refine ⟨hsound.yielded_cases, fun status hstatus more => ?_, hsound.yielded_of_hasEnded,
    fun hreturned here => ?_⟩
  · refine hsound.yielded_of_error_mem hstatus (isSound_after _) ?_
    rw [hafter]
    exact s.yielded_foldl more
  · have hend : s.CanReach fun t => t.hasEnded = true := by
      cases hstage : s.stage with
      | running =>
          rw [hstage] at hreturned
          cases hreturned
      | ending status number =>
          exact canReach_end_of_ending hsound (isLive_after acts) here hstage
      | finished result => exact canReach_end_of_isFinished (by rw [hstage]; rfl) here
    obtain ⟨more, hmore⟩ := hend
    exact ⟨more, (hafter more).symm ▸ hmore⟩

/-- A session sends a frame too many, fails when that has got its room, and is cancelled before
its status has. -/
def overfull : List (Act Nat) :=
  [.send 1, .send 2, .send 3, .send 4, .send 5, .read, .look 0,
    .finish (.error ⟨.internal, "gone"⟩), .cancel]

theorem yields_what_was_sent_overfull :
    let reading : List (Act Nat) := [.read, .look 1, .read, .read, .read, .read, .read]
    (∀ more, (after (overfull ++ reading ++ more)).yielded =
      [.ok 1, .ok 2, .ok 3, .ok 4, .ok 5, .error ⟨.internal, "gone"⟩]) ∧
    (∃ result, (after (overfull ++ reading)).stage.result? = some result ∧
      (after (overfull ++ reading)).yielded =
        (after (overfull ++ reading)).sent.map .ok ++ (Delivery.lastItem result).toList ∧
      ((∀ status, .error status ∉ (after (overfull ++ reading)).yielded) ↔ result = .ok ())) ∧
    ∃ more, (after (overfull ++ more)).hasEnded = true := by
  intro reading
  obtain ⟨-, hlast, hend, -⟩ := yields_what_was_sent (overfull ++ reading)
  obtain ⟨-, -, -, hreach⟩ := yields_what_was_sent overfull
  have hyielded : (after (overfull ++ reading)).yielded =
      [.ok 1, .ok 2, .ok 3, .ok 4, .ok 5, .error ⟨.internal, "gone"⟩] := rfl
  refine ⟨fun more => ?_, hend rfl, hreach rfl rfl⟩
  rw [hlast ⟨.internal, "gone"⟩ (by simp [hyielded]) more, hyielded]

end Served

end ManifestRelay.Service
