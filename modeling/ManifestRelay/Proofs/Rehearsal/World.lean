import ManifestRelay.Proofs.Session.Timekeeping
import ManifestRelay.Rehearsal.SessionTrial

/-!
# The clock of a rehearsal

A world lets time pass from one change to the next, and looks at each of them
whether the stream has to stop.  It never overshoots the stop, and it never gives
up waiting before, for every change uses up something that was still to come: an
event of the timeline, an item for the reader, or the reader itself.
-/

namespace ManifestRelay

open ManifestRelay.Stream

/-! ### Channels -/

namespace Stream.Channel

variable {α : Type} (c : Channel α)

theorem cancelled_wake (number : Nat) : (c.wake number).2.cancelled = c.cancelled := by
  unfold wake
  split
  · rfl
  · split
    · rfl
    · split <;> rfl

theorem cancelled_send (item : α) (cancellable : Bool) :
    (c.send item cancellable).2.cancelled = c.cancelled := by
  unfold send
  split
  · rfl
  · split <;> rfl

theorem of_receive {item : α} {rest : Channel α} (h : c.receive = (some item, rest)) :
    rest.cancelled = c.cancelled ∧ c.buffer.length = rest.buffer.length + 1 := by
  unfold receive at h
  split at h
  · cases h
  · next first more hbuffer =>
    cases h
    exact ⟨rfl, congrArg List.length hbuffer⟩

theorem receive_of_ne_nil (h : c.buffer ≠ []) : ∃ item rest, c.receive = (some item, rest) := by
  obtain ⟨item, more, hbuffer⟩ := List.exists_cons_of_ne_nil h
  unfold receive
  rw [hbuffer]
  exact ⟨item, _, rfl⟩

end Stream.Channel

namespace Rehearsal.World

open Session

variable {φ : Type}

def clock (w : World φ) : Reading :=
  ⟨w.now, if w.channel.cancelled then some (min w.cancelledAt w.now) else none, w.deadline⟩

/-- No instant after the deadline has come, and none after a cancellation. -/
structure IsTimely (deadline : Nat) (w : World φ) : Prop where
  deadline_eq : w.deadline = some deadline
  now_le : w.now ≤ deadline
  fresh : w.channel.cancelled = true → w.cancelledAt = w.now

theorem isStopped_eq {w : World φ} {deadline : Nat} (h : w.deadline = some deadline) :
    w.isStopped = (w.channel.cancelled || decide (deadline ≤ w.now)) := by
  rw [isStopped, h]
  rfl

theorem isStopped_eq_hasCome {w : World φ} (h : w.clock.deadline.isSome) :
    w.isStopped = w.clock.stop.hasCome w.clock.now := by
  obtain ⟨deadline, hdeadline⟩ := Option.isSome_iff_exists.1 h
  have hworld : w.deadline = some deadline := hdeadline
  rw [isStopped_eq hworld, Reading.stop, hdeadline, clock]
  cases w.channel.cancelled with
  | false => rfl
  | true =>
      have hcome : min (min w.cancelledAt w.now) deadline ≤ w.now :=
        Nat.le_trans (Nat.min_le_left _ _) (Nat.min_le_right _ _)
      exact (decide_eq_true hcome).symm

namespace IsTimely

variable {w : World φ} {deadline : Nat}

theorem of_isRunning (running : w.clock.IsRunning) :
    ∃ deadline, IsTimely deadline w ∧ w.isStopped = false := by
  have hstopped : w.isStopped = false := (isStopped_eq_hasCome running.1).trans running.2
  obtain ⟨deadline, hdeadline⟩ := Option.isSome_iff_exists.1 running.1
  have hworld : w.deadline = some deadline := hdeadline
  refine ⟨deadline, ⟨hworld, ?_, ?_⟩, hstopped⟩
  · exact Nat.le_of_lt (running.lt_deadline hdeadline)
  · intro hcancelled
    rw [isStopped_eq hworld, hcancelled] at hstopped
    cases hstopped

theorem isRunning (timely : IsTimely deadline w) (h : w.isStopped = false) : w.clock.IsRunning := by
  have hsome : w.clock.deadline.isSome = true := by
    have hdeadline : w.clock.deadline = some deadline := timely.deadline_eq
    rw [hdeadline]
    rfl
  exact ⟨hsome, (isStopped_eq_hasCome hsome).symm.trans h⟩

theorem stop_eq (timely : IsTimely deadline w) (h : w.isStopped = true) :
    w.clock.stop = some w.clock.now := by
  rw [isStopped_eq timely.deadline_eq] at h
  have hnow := timely.now_le
  unfold clock Reading.stop
  rw [timely.deadline_eq]
  cases hcancelled : w.channel.cancelled with
  | true =>
      rw [timely.fresh hcancelled]
      simp only [if_true, Polling.Stop.first, Option.merge]
      exact congrArg some (by omega)
  | false =>
      rw [hcancelled, Bool.false_or, decide_eq_true_iff] at h
      exact congrArg some (Nat.le_antisymm h hnow)

end IsTimely

/-! ### Changes -/

/-- What comes about at one instant: the clock stays, and a stream is cancelled now or was so. -/
structure IsMoment (before after : World φ) : Prop where
  now_eq : after.now = before.now
  deadline_eq : after.deadline = before.deadline
  stays : before.channel.cancelled = true → after.channel.cancelled = true
  cancelled : after.channel.cancelled = true → after.cancelledAt = before.cancellation

namespace IsMoment

variable {a b c : World φ}

theorem of_eq (now_eq : b.now = a.now) (deadline_eq : b.deadline = a.deadline)
    (cancelled_eq : b.channel.cancelled = a.channel.cancelled)
    (instant_eq : b.cancelledAt = a.cancelledAt) : IsMoment a b where
  now_eq := now_eq
  deadline_eq := deadline_eq
  stays h := cancelled_eq.trans h
  cancelled h := by rw [instant_eq, cancellation, if_pos (cancelled_eq.symm.trans h)]

theorem trans (first : IsMoment a b) (second : IsMoment b c) : IsMoment a c where
  now_eq := second.now_eq.trans first.now_eq
  deadline_eq := second.deadline_eq.trans first.deadline_eq
  stays h := second.stays (first.stays h)
  cancelled h := by
    rw [second.cancelled h, cancellation]
    split
    · next hearlier => exact first.cancelled hearlier
    · next hlater =>
      rw [cancellation, if_neg (mt first.stays hlater), first.now_eq]

theorem leave (w : World φ) : IsMoment w w.leave where
  now_eq := rfl
  deadline_eq := rfl
  stays h := by
    unfold World.leave
    split
    · rfl
    · exact h
  cancelled _ := rfl

theorem happen (w : World φ) (happening : Happening) : IsMoment w (w.happen happening) := by
  cases happening with
  | cancel => exact ⟨rfl, rfl, fun _ => rfl, fun _ => rfl⟩
  | leave => exact .leave w
  | commit id files => exact .of_eq rfl rfl rfl rfl
  | head id => exact .of_eq rfl rfl rfl rfl
  | failPoll e => exact .of_eq rfl rfl rfl rfl
  | failVisit e => exact .of_eq rfl rfl rfl rfl
  | failFile e => exact .of_eq rfl rfl rfl rfl
  | agent answer => exact .of_eq rfl rfl rfl rfl
  | project answer => exact .of_eq rfl rfl rfl rfl

theorem readUpTo (n : Nat) (w : World φ) : IsMoment w (readUpTo n w) := by
  fun_induction World.readUpTo n w with
  | case1 w => exact .of_eq rfl rfl rfl rfl
  | case2 n w h => exact .of_eq rfl rfl rfl rfl
  | case3 n w h happetite => exact .leave w
  | case4 n w h happetite channel hreceive => exact .of_eq rfl rfl rfl rfl
  | case5 n w h happetite item channel hreceive appetite pace ih =>
      refine .trans ?_ ih
      exact .of_eq rfl rfl (w.channel.of_receive hreceive).1 rfl

end IsMoment

theorem IsTimely.moment {deadline : Nat} {w after : World φ} (timely : IsTimely deadline w)
    (moment : IsMoment w after) : IsTimely deadline after where
  deadline_eq := moment.deadline_eq.trans timely.deadline_eq
  now_le := by
    rw [moment.now_eq]
    exact timely.now_le
  fresh h := by
    rw [moment.cancelled h, moment.now_eq, cancellation]
    split
    · next hearlier => exact timely.fresh hearlier
    · rfl

/-! ### What is still to come -/

/-- A bound on the changes that are still to come. -/
def left (w : World φ) : Nat :=
  w.timeline.length + w.channel.buffer.length + (if w.reader.leftAt.isNone then 1 else 0)

theorem left_leave (w : World φ) : w.leave.left = w.timeline.length := by
  have hbuffer : w.leave.channel.buffer = [] := by
    unfold leave
    dsimp only
    split <;> rfl
  have hleft : w.leave.reader.leftAt.isNone = false := rfl
  rw [left, hbuffer, hleft, if_neg Bool.false_ne_true]
  rfl

theorem left_happen_le (w : World φ) (happening : Happening) :
    (w.happen happening).left ≤ w.left := by
  cases happening with
  | leave =>
      have hleave : w.leave.left ≤ w.left := by
        rw [left_leave, left]
        omega
      exact hleave
  | cancel => exact Nat.le_refl _
  | commit id files => exact Nat.le_refl _
  | head id => exact Nat.le_refl _
  | failPoll e => exact Nat.le_refl _
  | failVisit e => exact Nat.le_refl _
  | failFile e => exact Nat.le_refl _
  | agent answer => exact Nat.le_refl _
  | project answer => exact Nat.le_refl _

theorem left_readUpTo_le (n : Nat) (w : World φ) : (readUpTo n w).left ≤ w.left := by
  fun_induction readUpTo n w with
  | case1 w => exact Nat.le_refl _
  | case2 n w h => exact Nat.le_refl _
  | case3 n w h happetite =>
      rw [left_leave, left]
      omega
  | case4 n w h happetite channel hreceive => exact Nat.le_refl _
  | case5 n w h happetite item channel hreceive appetite pace ih =>
      refine Nat.le_trans ih ?_
      have hbuffer := (w.channel.of_receive hreceive).2
      unfold left
      dsimp only
      omega

theorem left_readUpTo_lt {n : Nat} {w : World φ} (here : w.reader.leftAt = none)
    (ready : w.reader.readyAt ≤ w.now)
    (active : w.channel.buffer ≠ [] ∨ w.reader.appetite = some 0) :
    (readUpTo (n + 1) w).left < w.left := by
  have hhere : w.left = w.timeline.length + w.channel.buffer.length + 1 := by
    rw [left, here]
    rfl
  have hready : (w.reader.leftAt.isSome || decide (w.now < w.reader.readyAt)) = false := by
    rw [here, Option.isSome_none, Bool.false_or, decide_eq_false_iff_not]
    exact Nat.not_lt.2 ready
  rw [readUpTo, hready, if_neg Bool.false_ne_true]
  split
  · rw [left_leave, hhere]
    omega
  · next happetite =>
    obtain ⟨item, rest, hreceive⟩ :=
      w.channel.receive_of_ne_nil (active.resolve_right happetite)
    rw [hreceive]
    refine Nat.lt_of_le_of_lt (left_readUpTo_le _ _) ?_
    have hbuffer := (w.channel.of_receive hreceive).2
    rw [hhere, left]
    dsimp only
    split <;> omega

theorem of_readerTime {w : World φ} {time : Nat} (h : w.readerTime = some time) :
    w.now ≤ time ∧ { w with now := time }.read.left < w.left := by
  unfold readerTime at h
  split at h
  · cases h
  · next hmoves =>
    obtain rfl := Option.some.inj h
    rw [Bool.or_eq_true, Bool.and_eq_true, List.isEmpty_iff, bne_iff_ne, not_or,
      Classical.not_and_iff_not_or_not,
      Option.not_isSome_iff_eq_none, Classical.not_not] at hmoves
    refine ⟨Nat.le_max_left _ _, ?_⟩
    exact left_readUpTo_lt (w := { w with now := max w.now w.reader.readyAt }) hmoves.1
      (Nat.le_max_right _ _) hmoves.2

/-- The next change is not after the limit, and less is to come behind it. -/
theorem of_nextChange {w after : World φ} {limit : Nat} (hlimit : w.now ≤ limit)
    (h : w.nextChange (some limit) = some after) :
    (∃ moment, IsMoment moment after ∧ w.now ≤ moment.now ∧ moment.now ≤ limit ∧
      moment.deadline = w.deadline ∧ moment.channel = w.channel) ∧ after.read.left < w.left := by
  have hreader : ∀ {moved}, (w.readerTime.bind fun time =>
      if within time (some limit) then some { w with now := time } else none) = some moved →
      (∃ moment, IsMoment moment moved ∧ w.now ≤ moment.now ∧ moment.now ≤ limit ∧
        moment.deadline = w.deadline ∧ moment.channel = w.channel) ∧ moved.read.left < w.left := by
    intro moved hmoved
    obtain ⟨time, htime, hwithin⟩ := Option.bind_eq_some_iff.1 hmoved
    obtain ⟨hlater, hless⟩ := of_readerTime htime
    split at hwithin
    · next hle =>
      cases hwithin
      exact ⟨⟨_, .of_eq rfl rfl rfl rfl, hlater, of_decide_eq_true hle, rfl, rfl⟩, hless⟩
    · cases hwithin
  unfold nextChange at h
  dsimp only at h
  split at h
  · next time happening rest htimeline =>
    split at h
    · next hwithin =>
      cases h
      have htime : time ≤ limit := by
        cases hreaderTime : w.readerTime with
        | none =>
            rw [hreaderTime] at hwithin
            exact of_decide_eq_true hwithin
        | some other =>
            rw [hreaderTime] at hwithin
            exact Nat.le_trans (of_decide_eq_true hwithin) (Nat.min_le_left _ _)
      have hmax : max w.now time ≤ limit := Nat.max_le.2 ⟨hlimit, htime⟩
      refine ⟨⟨_, .happen _ happening, Nat.le_max_left _ _, hmax, rfl, rfl⟩, ?_⟩
      refine Nat.lt_of_le_of_lt (left_readUpTo_le _ _) ?_
      refine Nat.lt_of_le_of_lt (left_happen_le _ happening) ?_
      rw [left, left, htimeline, List.length_cons]
      dsimp only
      omega
    · exact hreader h
  · exact hreader h

theorem IsTimely.nextChange {deadline limit : Nat} {w after : World φ}
    (timely : IsTimely deadline w) (going : w.isStopped = false) (hlimit : w.now ≤ limit) (hdeadline : limit ≤ deadline)
    (h : w.nextChange (some limit) = some after) :
    IsTimely deadline after ∧ w.now ≤ after.now ∧ after.now ≤ limit ∧ after.read.left < w.left := by
  obtain ⟨⟨moment, hmoment, hnow, hle, hsame, hchannel⟩, hless⟩ := of_nextChange hlimit h
  have hrunning : moment.channel.cancelled = false := by
    rw [hchannel]
    rw [isStopped_eq timely.deadline_eq, Bool.or_eq_false_iff] at going
    exact going.1
  have htimely : IsTimely deadline moment :=
    { deadline_eq := hsame.trans timely.deadline_eq
      now_le := Nat.le_trans hle hdeadline
      fresh := fun hcancelled => by
        rw [hrunning] at hcancelled
        cases hcancelled }
  rw [hmoment.now_eq]
  exact ⟨htimely.moment hmoment, hnow, hle, hless⟩

theorem IsTimely.idle {deadline limit : Nat} {w : World φ} (timely : IsTimely deadline w)
    (going : w.isStopped = false) (hlimit : limit ≤ deadline) :
    IsTimely deadline { w with now := limit } ∧
      { w with now := limit }.isStopped = decide (deadline ≤ limit) := by
  have hcancelled : w.channel.cancelled = false := by
    rw [isStopped_eq timely.deadline_eq, Bool.or_eq_false_iff] at going
    exact going.1
  refine ⟨⟨timely.deadline_eq, hlimit, fun hlate => ?_⟩, ?_⟩
  · rw [hcancelled] at hlate
    cases hlate
  · have hsame : { w with now := limit }.deadline = some deadline := timely.deadline_eq
    rw [isStopped_eq hsame, hcancelled, Bool.false_or]

/-! ### Waits -/

/-- The end of something that was waited for, or of the wait for it. -/
structure Waited (deadline : Nat) (before : World φ) (ended : Bool) (after : World φ) : Prop where
  timely : IsTimely deadline after
  later : before.now ≤ after.now
  isStopped_eq : after.isStopped = !ended

namespace Waited

variable {deadline : Nat} {before between after : World φ} {ended : Bool}

theorem since (waited : Waited deadline between ended after) (earlier : before.now ≤ between.now) :
    Waited deadline before ended after where
  timely := waited.timely
  later := Nat.le_trans earlier waited.later
  isStopped_eq := waited.isStopped_eq

theorem isAfter (waited : Waited deadline before ended after) (timely : IsTimely deadline before) :
    after.clock.IsAfter before.clock :=
  ⟨waited.timely.deadline_eq.trans timely.deadline_eq.symm, waited.later⟩

theorem isRunning (waited : Waited deadline before true after) : after.clock.IsRunning :=
  waited.timely.isRunning waited.isStopped_eq

theorem stop_eq (waited : Waited deadline before false after) :
    after.clock.stop = some after.clock.now :=
  waited.timely.stop_eq waited.isStopped_eq

end Waited

theorem waited_waitUntil {n target deadline : Nat} {w after : World φ} {passed : Bool}
    (enough : w.read.left < n) (timely : IsTimely deadline w) (htarget : w.now ≤ target)
    (h : waitUntil n target w = (passed, after)) :
    Waited deadline w passed after ∧ (passed = true → after.now = target) := by
  induction n generalizing w with
  | zero => exact absurd enough (Nat.not_lt_zero _)
  | succ n ih =>
      have hread : IsMoment w w.read := .readUpTo _ w
      have htimely := timely.moment hread
      have hnow := hread.now_eq
      rw [waitUntil] at h
      dsimp only at h
      cases hstopped : w.read.isStopped with
      | true =>
          rw [hstopped, if_pos rfl] at h
          cases h
          exact ⟨⟨htimely, Nat.le_of_eq hnow.symm, hstopped⟩, nofun⟩
      | false =>
          have hgetD : w.read.deadline.getD target = deadline := by
            rw [htimely.deadline_eq, Option.getD_some]
          rw [hstopped, if_neg Bool.false_ne_true, hgetD] at h
          have hlimit : w.read.now ≤ min target deadline := by
            rw [hnow]
            exact Nat.le_min.2 ⟨htarget, timely.now_le⟩
          split at h
          · next next hnext =>
            obtain ⟨hnextTimely, hlater, hle, hless⟩ :=
              htimely.nextChange hstopped hlimit (Nat.min_le_right _ _) hnext
            obtain ⟨hwaited, hpassed⟩ := ih (by omega) hnextTimely
              (Nat.le_trans hle (Nat.min_le_left _ _)) h
            rw [hnow] at hlater
            exact ⟨hwaited.since hlater, hpassed⟩
          · obtain ⟨hidle, hcome⟩ := htimely.idle hstopped (Nat.min_le_right target deadline)
            cases h
            have hlater : w.now ≤ min target deadline := hnow ▸ hlimit
            refine ⟨⟨hidle, hlater, (Bool.not_not _).symm⟩, fun hpassed => ?_⟩
            rw [hcome, Bool.not_eq_true', decide_eq_false_iff_not] at hpassed
            dsimp only
            omega

theorem left_read_lt_changes (w : World φ) : w.read.left < w.changes := by
  refine Nat.lt_of_le_of_lt (left_readUpTo_le _ w) ?_
  rw [left, changes]
  split <;> omega

theorem waited_wait {duration deadline : Nat} {w after : World φ} {passed : Bool}
    (timely : IsTimely deadline w) (going : w.isStopped = false)
    (h : w.wait duration = (passed, after)) :
    Waited deadline w passed after ∧ (passed = true → w.now + duration ≤ after.now) := by
  unfold wait at h
  split at h
  · next hnone =>
    cases h
    exact ⟨⟨timely, Nat.le_refl _, going⟩, fun _ => Nat.le_of_eq (by rw [hnone, Nat.add_zero])⟩
  · obtain ⟨hwaited, hpassed⟩ :=
      waited_waitUntil (left_read_lt_changes w) timely (Nat.le_add_right _ _) h
    exact ⟨hwaited, fun h => Nat.le_of_eq (hpassed h).symm⟩

/-- Waiting for room ends when the frame is sent or refused, or with the stop. -/
theorem waited_waitForRoom {n number deadline : Nat} {w after : World φ}
    {outcome : Option (Except SendError Unit)} (enough : w.read.left < n)
    (timely : IsTimely deadline w) (h : waitForRoom n number w = (outcome, after)) :
    Waited deadline w outcome.isSome after := by
  induction n generalizing w with
  | zero => exact absurd enough (Nat.not_lt_zero _)
  | succ n ih =>
      have hread : IsMoment w w.read := .readUpTo _ w
      have htimely := timely.moment hread
      have hnow := hread.now_eq
      rw [waitForRoom] at h
      dsimp only at h
      cases hstopped : w.read.isStopped with
      | true =>
          rw [hstopped, if_pos rfl] at h
          cases h
          exact ⟨⟨htimely.deadline_eq, htimely.now_le, htimely.fresh⟩, Nat.le_of_eq hnow.symm,
            hstopped⟩
      | false =>
          rw [hstopped, if_neg Bool.false_ne_true] at h
          have hsettled : ∀ channel : Service.Delivery φ,
              channel.cancelled = w.read.channel.cancelled →
              Waited deadline w true { w.read with channel } := by
            intro channel hsame
            refine ⟨htimely.moment (.of_eq rfl rfl hsame rfl), Nat.le_of_eq hnow.symm, ?_⟩
            have hdeadline : { w.read with channel }.deadline = some deadline := htimely.deadline_eq
            rw [isStopped_eq hdeadline, hsame, ← isStopped_eq htimely.deadline_eq]
            exact hstopped
          split at h
          · next channel hwake =>
            cases h
            refine hsettled channel ?_
            rw [← w.read.channel.cancelled_wake number, hwake]
          · next reason channel hwake =>
            cases h
            refine hsettled channel ?_
            rw [← w.read.channel.cancelled_wake number, hwake]
          · have hsome : w.read.nextChange w.read.deadline = w.read.nextChange (some deadline) := by
              rw [htimely.deadline_eq]
            rw [hsome] at h
            split at h
            · next next hnext =>
              obtain ⟨hnextTimely, hlater, -, hless⟩ :=
                htimely.nextChange hstopped htimely.now_le (Nat.le_refl _) hnext
              have hwaited := ih (by omega) hnextTimely h
              rw [hnow] at hlater
              exact hwaited.since hlater
            · have hgetD : w.read.deadline.getD w.read.now = deadline := by
                rw [htimely.deadline_eq, Option.getD_some]
              rw [hgetD] at h
              obtain ⟨hidle, hcome⟩ := htimely.idle hstopped (Nat.le_refl deadline)
              cases h
              refine ⟨hidle.moment (.of_eq rfl rfl rfl rfl), ?_, ?_⟩
              · exact Nat.le_trans (Nat.le_of_eq hnow.symm) htimely.now_le
              · rw [decide_eq_true (Nat.le_refl deadline)] at hcome
                exact hcome

/-! ### Answers -/

theorem Waited.of_eq {deadline : Nat} {before w after : World φ} {ended : Bool}
    (waited : Waited deadline before ended w) (now_eq : after.now = w.now)
    (deadline_eq : after.deadline = w.deadline)
    (cancelled_eq : after.channel.cancelled = w.channel.cancelled)
    (instant_eq : after.cancelledAt = w.cancelledAt) : Waited deadline before ended after where
  timely := waited.timely.moment (.of_eq now_eq deadline_eq cancelled_eq instant_eq)
  later := by
    rw [now_eq]
    exact waited.later
  isStopped_eq := by
    rw [isStopped, deadline_eq, cancelled_eq, now_eq]
    exact waited.isStopped_eq

section Answers

variable {deadline : Nat} {w after : World φ} (timely : IsTimely deadline w)
  (going : w.isStopped = false)

include timely going

theorem waited_nothing : Waited deadline w true w := ⟨timely, Nat.le_refl _, going⟩

theorem waited_request {α : Type} {c : Call} {delay : Nat} {answer : Shelf → α × Shelf}
    {outcome : Option α} (h : w.request c delay answer = (outcome, after)) :
    Waited deadline w outcome.isSome after := by
  have htimely : IsTimely deadline (w.call c) := timely.moment (.of_eq rfl rfl rfl rfl)
  unfold request at h
  rcases hwait : (w.call c).wait delay with ⟨passed, v⟩
  obtain ⟨hwaited, -⟩ := waited_wait htimely going hwait
  have hback : Waited deadline w passed v := hwaited.since (Nat.le_refl _)
  rw [hwait] at h
  cases passed with
  | false =>
      cases h
      exact hback
  | true =>
      cases h
      exact hback.of_eq rfl rfl rfl rfl

theorem waited_ask {κ ν : Type} [DecidableEq κ] {line : Line κ ν}
    {outcome : Option (Except Metadata.MetadataError ν)}
    (h : caller.ask line w = (outcome, after)) : Waited deadline w outcome.isSome after := by
  unfold Caller.ask at h
  split at h
  · cases h
    exact (waited_nothing timely going).of_eq rfl rfl rfl rfl
  · cases h
    exact (waited_nothing timely going).of_eq rfl rfl rfl rfl
  · next cache hreceive =>
    have htimely : IsTimely deadline (caller.note line.question (caller.putCache line cache w)) :=
      timely.moment (.of_eq rfl rfl rfl rfl)
    rcases hwait : caller.wait (line.delay (caller.desk w).backend)
      (caller.note line.question (caller.putCache line cache w)) with ⟨passed, v⟩
    obtain ⟨hwaited, -⟩ := waited_wait htimely going hwait
    have hback : Waited deadline w passed v := hwaited.since (Nat.le_refl _)
    rw [hwait] at h
    cases passed with
    | false =>
        cases h
        exact hback.of_eq rfl rfl rfl rfl
    | true =>
        cases h
        exact hback.of_eq rfl rfl rfl rfl

theorem waited_sendFrame {frame : φ} {outcome : Option (Except SendError Unit)}
    (h : w.sendFrame frame = (outcome, after)) : Waited deadline w outcome.isSome after := by
  unfold sendFrame at h
  rcases hsend : w.channel.sendFrame frame with ⟨progress, channel⟩
  have hcancelled : channel.cancelled = w.channel.cancelled := by
    rw [← w.channel.cancelled_send (.ok frame) true]
    exact congrArg (fun sent => Channel.cancelled sent.2) hsend.symm
  have hwaited : Waited deadline w true { w with channel } :=
    (waited_nothing timely going).of_eq rfl rfl hcancelled rfl
  rw [hsend] at h
  cases progress with
  | sent =>
      cases h
      exact hwaited
  | refused reason =>
      cases h
      exact hwaited
  | waiting number =>
      exact (waited_waitForRoom (left_read_lt_changes _) hwaited.timely h).since hwaited.later

theorem waited_answer {query : Query φ} {outcome : Option query.Answer}
    (h : w.answer query = (outcome, after)) : Waited deadline w outcome.isSome after := by
  cases query with
  | agent token => exact waited_ask timely going h
  | project token id => exact waited_ask timely going h
  | poll server repository last name =>
      unfold answer at h
      exact waited_request timely going h
  | file server repository revision path limit =>
      unfold answer at h
      exact waited_request timely going h
  | visit server repository revision directory recursive =>
      unfold answer at h
      exact waited_request timely going h
  | send frame => exact waited_sendFrame timely going h

end Answers

/-- A world keeps time. -/
theorem host_keepsTime : (host : Host (World φ) φ).KeepsTime clock := by
  constructor
  case record =>
    intro note w
    rfl
  case start =>
    intro configured w
    exact ⟨configured, .inl rfl, rfl⟩
  case isStopped =>
    intro w h
    exact isStopped_eq_hasCome h
  case answered =>
    intro query w answer after running h
    obtain ⟨deadline, timely, going⟩ := IsTimely.of_isRunning running
    have hwaited := waited_answer timely going h
    exact ⟨hwaited.isRunning, hwaited.isAfter timely⟩
  case unanswered =>
    intro query w after running h
    obtain ⟨deadline, timely, going⟩ := IsTimely.of_isRunning running
    have hwaited := waited_answer timely going h
    exact ⟨hwaited.stop_eq, hwaited.isAfter timely⟩
  case passed =>
    intro duration w after running h
    obtain ⟨deadline, timely, going⟩ := IsTimely.of_isRunning running
    obtain ⟨hwaited, hpassed⟩ := waited_wait timely going h
    exact ⟨hwaited.isRunning, (hwaited.isAfter timely).1, hpassed rfl⟩
  case cut =>
    intro duration w after running h
    obtain ⟨deadline, timely, going⟩ := IsTimely.of_isRunning running
    obtain ⟨hwaited, -⟩ := waited_wait timely going h
    exact ⟨hwaited.stop_eq, hwaited.isAfter timely⟩

end Rehearsal.World

end ManifestRelay
