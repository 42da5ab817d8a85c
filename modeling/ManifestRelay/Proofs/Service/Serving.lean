import ManifestRelay.Proofs.Stream.Channel
import ManifestRelay.Service.Call
import ManifestRelay.Service.Serving

/-!
# What a served stream yields

A served stream is followed with its past.  Its session sends frames, several at a time if it likes,
drops sends that wait, and returns; meanwhile the reader reads or goes away, and the stream may be
cancelled.  Whatever comes when, the stream yields the frames that were sent, in their
order, and then the status of a session that failed.
-/

namespace ManifestRelay.Service

open ManifestRelay.Stream

inductive Stage where
  | running
  /-- It has failed, and its status waits for room. -/
  | ending (status : Status) (number : Nat)
  /-- Nothing will be sent any more. -/
  | finished (result : Except Status Unit)

namespace Stage

def result? : Stage → Option (Except Status Unit)
  | .running => none
  | .ending status _ => some (.error status)
  | .finished result => some result

def isFinished : Stage → Bool
  | .finished _ => true
  | .running | .ending .. => false

/-- The stage of a session that has returned, by the progress of its status. -/
def returned : Except Status Unit → Option Progress → Stage
  | .error status, some (.waiting number) => .ending status number
  | result, _ => .finished result

end Stage

/-- A served stream with its past. -/
structure Served (φ : Type) where
  delivery : Delivery φ
  stage : Stage
  /-- The frames that the session has sent, oldest first. -/
  sent : List φ
  /-- The items that the stream has yielded, oldest first. -/
  yielded : List (Except Status φ)
  /-- Whether the reader was told that nothing follows. -/
  hasEnded : Bool

inductive Act (φ : Type) where
  | send (frame : φ)
  /-- A send that waits looks at the stream again. -/
  | look (number : Nat)
  | drop (number : Nat)
  | finish (result : Except Status Unit)
  | read
  | leave
  | cancel

namespace Served

variable {φ : Type}

def opened : Served φ := ⟨.empty streamCapacity, .running, [], [], false⟩

def note (s : Served φ) (item : Except Status φ) : Option Progress × Delivery φ → Served φ
  | (some .sent, delivery) => { s with delivery, sent := s.sent ++ item.toOption.toList }
  | (_, delivery) => { s with delivery }

/-- The session has returned, and its status has looked at the stream. -/
def conclude (s : Served φ) (result : Except Status Unit) :
    Option Progress × Delivery φ → Served φ
  | (progress, delivery) => { s with delivery, stage := .returned result progress }

/-- Only a session that runs sends. -/
def send (s : Served φ) (frame : φ) : Served φ :=
  match s.stage with
  | .running =>
      let (progress, delivery) := s.delivery.sendFrame frame
      s.note (.ok frame) (some progress, delivery)
  | .ending .. | .finished _ => s

/-- After the session has returned, only its status looks at the stream. -/
def look (s : Served φ) (number : Nat) : Served φ :=
  match s.delivery.waiter? number with
  | none => s
  | some w =>
      match s.stage with
      | .running => s.note w.item (s.delivery.wake number)
      | .ending status own =>
          if number = own then s.conclude (.error status) (s.delivery.wake number) else s
      | .finished _ => s

/-- Every send but that of the status may be dropped. -/
def drop (s : Served φ) (number : Nat) : Served φ :=
  match s.stage with
  | .ending _ own => if number = own then s else { s with delivery := s.delivery.abandon number }
  | .running | .finished _ => { s with delivery := s.delivery.abandon number }

def finish (s : Served φ) (result : Except Status Unit) : Served φ :=
  match s.stage with
  | .running => s.conclude result (s.delivery.finish result)
  | .ending .. | .finished _ => s

/-- Where nothing is on the way, the reader waits unless nothing will be sent any more. -/
def read (s : Served φ) : Served φ :=
  if s.delivery.closed then s
  else
    match s.delivery.receive with
    | (some item, delivery) => { s with delivery, yielded := s.yielded ++ [item] }
    | (none, _) => { s with hasEnded := s.stage.isFinished }

/-- What is not possible changes nothing. -/
def perform (s : Served φ) : Act φ → Served φ
  | .send frame => s.send frame
  | .look number => s.look number
  | .drop number => s.drop number
  | .finish result => s.finish result
  | .read => s.read
  | .leave => { s with delivery := s.delivery.close }
  | .cancel => { s with delivery := s.delivery.shutDown }

def after (acts : List (Act φ)) : Served φ := acts.foldl perform opened

/-! ### What has been put in -/

def lastItems (s : Served φ) : List (Except Status φ) :=
  match s.stage with
  | .finished result => (Delivery.lastItem result).toList
  | .running | .ending .. => []

/-- The items that a stream has to yield. -/
def due (s : Served φ) : List (Except Status φ) := s.sent.map .ok ++ s.lastItems

/-- What a send of a number may wait to put in, and whether it may be cancelled. -/
def Awaits : Stage → Nat → Except Status φ → Bool → Prop
  | .running, _, item, _ => ∃ frame, item = .ok frame
  | .ending status own, number, item, cancellable =>
      number = own → item = .error status ∧ cancellable = false
  | .finished _, _, _, _ => True

/-- Until the reader goes away, what is due has been yielded or is on the way; afterwards what has
been yielded is a part of it. -/
structure IsSound (s : Served φ) : Prop where
  kept : s.delivery.closed = false → s.yielded ++ s.delivery.buffer = s.due
  yielded : s.yielded <+: s.due
  early : ∀ w ∈ s.delivery.waiters, w.number < s.delivery.nextNumber
  awaited : ∀ w ∈ s.delivery.waiters, Awaits s.stage w.number w.item w.cancellable
  ended : s.hasEnded = true → s.stage.isFinished = true ∧ s.yielded = s.due

theorem due_of_not_isFinished {s : Served φ} (h : s.stage.isFinished = false) :
    s.due = s.sent.map .ok := by
  rw [due, lastItems]
  cases hstage : s.stage with
  | running | ending => exact List.append_nil _
  | finished =>
      rw [hstage] at h
      cases h

namespace IsSound

variable {s : Served φ}

theorem opened : (opened : Served φ).IsSound where
  kept _ := rfl
  yielded := List.prefix_refl []
  early := nofun
  awaited := nofun
  ended := nofun

theorem cancel (sound : s.IsSound) : (s.perform .cancel).IsSound :=
  ⟨sound.kept, sound.yielded, sound.early, sound.awaited, sound.ended⟩

theorem leave (sound : s.IsSound) : (s.perform .leave).IsSound :=
  ⟨nofun, sound.yielded, sound.early, sound.awaited, sound.ended⟩

/-- Nothing is lost with a send that gives up. -/
theorem abandon (sound : s.IsSound) (number : Nat) :
    { s with delivery := s.delivery.abandon number }.IsSound where
  kept := sound.kept
  yielded := sound.yielded
  early := Channel.mem_abandon (fun _ h => h) sound.early number
  awaited := Channel.mem_abandon (fun _ h => h) sound.awaited number
  ended := sound.ended

theorem read (sound : s.IsSound) : s.read.IsSound := by
  unfold Served.read
  split
  · exact sound
  · next hclosed =>
    have hkept := sound.kept (Bool.eq_false_iff.2 hclosed)
    cases hbuffer : s.delivery.buffer with
    | nil =>
        rw [hbuffer, List.append_nil] at hkept
        simp only [Channel.receive, hbuffer]
        exact ⟨sound.kept, sound.yielded, sound.early, sound.awaited, fun hended => ⟨hended, hkept⟩⟩
    | cons item rest =>
        have hdue : (s.yielded ++ [item]) ++ rest = s.due := by
          rw [← hkept, hbuffer, List.append_assoc]
          rfl
        simp only [Channel.receive, hbuffer]
        refine ⟨fun _ => hdue, ⟨rest, hdue⟩, Channel.mem_grantAll (fun _ h => h) sound.early,
          Channel.mem_grantAll (fun _ h => h) sound.awaited, fun hended => ?_⟩
        -- Nothing is on the way to a reader that has been told so.
        obtain ⟨-, hall⟩ := sound.ended hended
        rw [hall, hbuffer] at hkept
        exact absurd (List.append_right_eq_self.1 hkept) (List.cons_ne_nil item rest)

/-! ### Sends of a session that runs -/

theorem put (sound : s.IsSound) (running : s.stage = .running) {frame : φ} {delivery : Delivery φ}
    (here : s.delivery.closed = false)
    (buffer : delivery.buffer = s.delivery.buffer ++ [.ok frame])
    (early : ∀ w ∈ delivery.waiters, w.number < delivery.nextNumber)
    (awaited : ∀ w ∈ delivery.waiters, Awaits s.stage w.number w.item w.cancellable) :
    { s with delivery, sent := s.sent ++ [frame] }.IsSound := by
  have hgoing : s.stage.isFinished = false := by
    rw [running]
    rfl
  have hbefore : s.yielded ++ s.delivery.buffer = s.sent.map .ok :=
    (sound.kept here).trans (due_of_not_isFinished hgoing)
  have hdue : { s with delivery, sent := s.sent ++ [frame] }.due =
      s.sent.map .ok ++ [.ok frame] := by
    have hnext := due_of_not_isFinished
      (s := { s with delivery, sent := s.sent ++ [frame] }) hgoing
    rw [hnext, List.map_append, List.map_singleton]
  refine ⟨fun _ => ?_, ?_, early, awaited, fun hended => ?_⟩
  · rw [hdue, ← hbefore, List.append_assoc]
    exact congrArg (s.yielded ++ ·) buffer
  · rw [hdue, ← hbefore]
    exact ⟨s.delivery.buffer ++ [.ok frame], (List.append_assoc ..).symm⟩
  · rw [(sound.ended hended).1] at hgoing
    cases hgoing

theorem early_wait (sound : s.IsSound) (item : Except Status φ) (cancellable : Bool) :
    ∀ w ∈ s.delivery.waiters ++ [⟨s.delivery.nextNumber, item, cancellable, false⟩],
      w.number < s.delivery.nextNumber + 1 := by
  intro w hw
  rcases List.mem_append.1 hw with hold | hnew
  · exact Nat.lt_succ_of_lt (sound.early w hold)
  · rw [List.mem_singleton.1 hnew]
    exact Nat.lt_succ_self _

theorem send (sound : s.IsSound) (frame : φ) : (s.send frame).IsSound := by
  unfold Served.send
  split
  · next running =>
    rcases s.delivery.send_cases (.ok frame) true with
      ⟨reason, -, h⟩ | ⟨here, h⟩ | ⟨here, h⟩
    · simp only [Delivery.sendFrame, h, note]
      exact sound
    · simp only [Delivery.sendFrame, h, note]
      exact sound.put running here rfl sound.early sound.awaited
    · simp only [Delivery.sendFrame, h, note]
      refine ⟨sound.kept, sound.yielded, sound.early_wait _ _, fun w hw => ?_, sound.ended⟩
      rcases List.mem_append.1 hw with hold | hnew
      · exact sound.awaited w hold
      · rw [List.mem_singleton.1 hnew, running]
        exact ⟨frame, rfl⟩
  · exact sound
  · exact sound

theorem look_running (sound : s.IsSound) (running : s.stage = .running) {number : Nat}
    {w : Waiter (Except Status φ)} (h : s.delivery.waiter? number = some w) :
    (s.note w.item (s.delivery.wake number)).IsSound := by
  obtain ⟨hw, -⟩ := Channel.mem_of_waiter? h
  have hawaited := sound.awaited w hw
  rw [running] at hawaited
  obtain ⟨frame, hframe⟩ := hawaited
  rcases Channel.wake_cases h with ⟨reason, -, hwake⟩ | ⟨here, hwake⟩ | ⟨-, hwake⟩
  · rw [hwake]
    exact sound.abandon number
  · rw [hwake, hframe]
    exact sound.put running here rfl (fun v hv => sound.early v (List.mem_filter.1 hv).1)
      fun v hv => sound.awaited v (List.mem_filter.1 hv).1
  · rw [hwake]
    exact sound

/-! ### The status of a session that has failed -/

theorem finished (sound : s.IsSound) (going : s.stage.isFinished = false) {delivery : Delivery φ}
    (result : Except Status Unit)
    (put : delivery.closed = false → s.delivery.closed = false ∧
      delivery.buffer = s.delivery.buffer ++ (Delivery.lastItem result).toList)
    (early : ∀ w ∈ delivery.waiters, w.number < delivery.nextNumber) :
    { s with delivery, stage := .finished result }.IsSound := by
  have hdue := due_of_not_isFinished going
  refine ⟨fun hopen => ?_, ?_, early, fun _ _ => trivial, fun hended => ?_⟩
  · obtain ⟨here, hbuffer⟩ := put hopen
    have hkept := sound.kept here
    rw [hdue] at hkept
    change s.yielded ++ delivery.buffer = s.sent.map .ok ++ (Delivery.lastItem result).toList
    rw [hbuffer, ← List.append_assoc, hkept]
  · have hyielded := sound.yielded
    rw [hdue] at hyielded
    exact hyielded.trans (List.prefix_append _ _)
  · rw [(sound.ended hended).1] at going
    cases going

/-- A status that waits is not due before it is put in. -/
theorem ending (sound : s.IsSound) (going : s.stage.isFinished = false) {delivery : Delivery φ}
    {status : Status} {number : Nat} (closed : delivery.closed = s.delivery.closed)
    (buffer : delivery.buffer = s.delivery.buffer)
    (early : ∀ w ∈ delivery.waiters, w.number < delivery.nextNumber)
    (awaited : ∀ w ∈ delivery.waiters,
      w.number = number → w.item = .error status ∧ w.cancellable = false) :
    { s with delivery, stage := .ending status number }.IsSound := by
  have hdue : { s with delivery, stage := .ending status number }.due = s.due :=
    (List.append_nil _).trans (due_of_not_isFinished going).symm
  refine ⟨fun hopen => ?_, ?_, early, awaited, fun hended => ?_⟩
  · rw [hdue, ← sound.kept (closed ▸ hopen)]
    exact congrArg (s.yielded ++ ·) buffer
  · rw [hdue]
    exact sound.yielded
  · rw [(sound.ended hended).1] at going
    cases going

theorem finish (sound : s.IsSound) (result : Except Status Unit) : (s.finish result).IsSound := by
  unfold Served.finish
  split
  · next running =>
    have hgoing : s.stage.isFinished = false := by
      rw [running]
      rfl
    cases result with
    | ok =>
        exact sound.finished hgoing (.ok ()) (fun here => ⟨here, (List.append_nil _).symm⟩)
          sound.early
    | error status =>
        rcases s.delivery.send_cases (.error status) false with
          ⟨reason, hrefusal, h⟩ | ⟨here, h⟩ | ⟨here, h⟩
        · have hclosed := Channel.closed_of_refusal hrefusal
          simp only [Delivery.finish, Delivery.lastItem, h, conclude, Stage.returned]
          refine sound.finished hgoing (.error status) (fun hopen => ?_) sound.early
          rw [hclosed] at hopen
          cases hopen
        · simp only [Delivery.finish, Delivery.lastItem, h, conclude, Stage.returned]
          exact sound.finished hgoing (.error status) (fun _ => ⟨here, rfl⟩) sound.early
        · simp only [Delivery.finish, Delivery.lastItem, h, conclude, Stage.returned]
          refine sound.ending hgoing rfl rfl (sound.early_wait _ _) fun w hw hnumber => ?_
          rcases List.mem_append.1 hw with hold | hnew
          · exact absurd hnumber (Nat.ne_of_lt (sound.early w hold))
          · rw [List.mem_singleton.1 hnew]
            exact ⟨rfl, rfl⟩
  · exact sound
  · exact sound

theorem look_ending (sound : s.IsSound) {status : Status} {number : Nat}
    (ending : s.stage = .ending status number) {w : Waiter (Except Status φ)}
    (h : s.delivery.waiter? number = some w) :
    (s.conclude (.error status) (s.delivery.wake number)).IsSound := by
  have hgoing : s.stage.isFinished = false := by
    rw [ending]
    rfl
  obtain ⟨hw, hnumber⟩ := Channel.mem_of_waiter? h
  have hawaited := sound.awaited w hw
  rw [ending] at hawaited
  obtain ⟨hitem, hfinal⟩ := hawaited hnumber
  rcases Channel.wake_cases h with ⟨reason, hrefusal, hwake⟩ | ⟨here, hwake⟩ | ⟨-, hwake⟩
  · rw [hfinal] at hrefusal
    have hclosed := Channel.closed_of_refusal hrefusal
    rw [hwake]
    refine sound.finished hgoing (.error status) (fun hopen => ?_) (sound.abandon number).early
    exact absurd hclosed (Bool.eq_false_iff.1 hopen)
  · rw [hwake, hitem]
    exact sound.finished hgoing (.error status) (fun _ => ⟨here, rfl⟩)
      fun v hv => sound.early v (List.mem_filter.1 hv).1
  · rw [hwake, conclude, Stage.returned, ← ending]
    exact sound

theorem look (sound : s.IsSound) (number : Nat) : (s.look number).IsSound := by
  unfold Served.look
  split
  · exact sound
  · next w h =>
    split
    · next running => exact sound.look_running running h
    · next status own ending =>
      split
      · next hown =>
        subst hown
        exact sound.look_ending ending h
      · exact sound
    · exact sound

theorem drop (sound : s.IsSound) (number : Nat) : (s.drop number).IsSound := by
  unfold Served.drop
  split
  · split
    · exact sound
    · exact sound.abandon number
  · exact sound.abandon number
  · exact sound.abandon number

theorem perform (sound : s.IsSound) (act : Act φ) : (s.perform act).IsSound := by
  cases act with
  | send frame => exact sound.send frame
  | look number => exact sound.look number
  | drop number => exact sound.drop number
  | finish result => exact sound.finish result
  | read => exact sound.read
  | leave => exact sound.leave
  | cancel => exact sound.cancel

end IsSound

theorem isSound_after (acts : List (Act φ)) : (after acts).IsSound := by
  suffices h : ∀ s : Served φ, s.IsSound → (acts.foldl perform s).IsSound from h _ .opened
  induction acts with
  | nil => exact fun s sound => sound
  | cons act rest ih => exact fun s sound => ih _ (sound.perform act)

end Served

end ManifestRelay.Service
