import Mathlib.Data.List.Induction
import Mathlib.Data.List.Nodup
import ManifestRelay.Proofs.Stream.Channel

/-!
# Many calls to one stream

Any number of callers send to a stream, in any order of their looks at it; a look, like every
other act, is one step.  Whatever they and the reader do, the calls that wait stand in one line,
and what is received is the beginning of what calls were told is sent, in that order.
-/

namespace ManifestRelay.Stream

inductive Fate where
  | waiting (number : Nat)
  | sent
  | refused (reason : SendError)
  | abandoned
deriving DecidableEq, Repr

def Fate.ofProgress : Progress → Fate
  | .sent => .sent
  | .refused reason => .refused reason
  | .waiting number => .waiting number

/-- Whether an item is a frame, whose send ends when the stream is cancelled; a status is sent to
its end. -/
def isFrame {φ : Type} : Except Status φ → Bool
  | .ok _ => true
  | .error _ => false

structure Call (φ : Type) where
  item : Except Status φ
  fate : Fate

/-- The send of a call that waits, as it joined the line. -/
def Call.waiter? {φ : Type} (call : Call φ) : Option (Waiter (Except Status φ)) :=
  match call.fate with
  | .waiting number => some ⟨number, call.item, isFrame call.item, false⟩
  | .sent | .refused _ | .abandoned => none

/-- What is done to a stream.  A call is named by its place among all calls. -/
inductive Act (φ : Type) where
  | send (item : Except Status φ)
  | look (place : Nat)
  | abandon (place : Nat)
  | read
  | cancel
  /-- The reader lets nothing more in, but reads what there is. -/
  | shut
  | depart

structure Traffic (φ : Type) where
  channel : Channel (Except Status φ)
  calls : List (Call φ)
  /-- Places of the calls that were told that their item is sent, in order of being told. -/
  completed : List Nat
  received : List (Except Status φ)
  /-- Items that were on the way when the reader went away. -/
  lost : List (Except Status φ)

namespace Traffic

variable {φ : Type}

def start (capacity : Nat) : Traffic φ := ⟨.empty capacity, [], [], [], []⟩

def waiting? (t : Traffic φ) (place : Nat) : Option (Except Status φ × Nat) :=
  match t.calls[place]? with
  | some ⟨item, .waiting number⟩ => some (item, number)
  | _ => none

/-- The places that were told of success, after the call at a place was told its progress. -/
def told (completed : List Nat) (place : Nat) : Progress → List Nat
  | .sent => completed ++ [place]
  | .refused _ | .waiting _ => completed

def send (t : Traffic φ) (item : Except Status φ) : Traffic φ :=
  let looked := t.channel.send item (isFrame item)
  { t with
    channel := looked.2
    calls := t.calls ++ [⟨item, .ofProgress looked.1⟩]
    completed := told t.completed t.calls.length looked.1 }

def look (t : Traffic φ) (place : Nat) : Traffic φ :=
  match t.waiting? place with
  | none => t
  | some (item, number) =>
      match t.channel.wake number with
      | (none, _) => t
      | (some progress, channel) =>
          { t with
            channel
            calls := t.calls.set place ⟨item, .ofProgress progress⟩
            completed := told t.completed place progress }

def abandon (t : Traffic φ) (place : Nat) : Traffic φ :=
  match t.waiting? place with
  | none => t
  | some (item, number) =>
      { t with
        channel := t.channel.abandon number
        calls := t.calls.set place ⟨item, .abandoned⟩ }

def read (t : Traffic φ) : Traffic φ :=
  { t with channel := t.channel.receive.2, received := t.received ++ t.channel.receive.1.toList }

def perform (t : Traffic φ) : Act φ → Traffic φ
  | .send item => t.send item
  | .look place => t.look place
  | .abandon place => t.abandon place
  | .read => t.read
  | .cancel => { t with channel := t.channel.cancel }
  | .shut => { t with channel := { t.channel with closed := true } }
  | .depart => { t with channel := t.channel.close, lost := t.lost ++ t.channel.buffer }

def after (capacity : Nat) (acts : List (Act φ)) : Traffic φ :=
  acts.foldl perform (start capacity)

def itemsAt (calls : List (Call φ)) (places : List Nat) : List (Except Status φ) :=
  places.filterMap fun place => calls[place]?.map Call.item

/-- Items whose calls were told that they are sent, in order of being told. -/
def sent (t : Traffic φ) : List (Except Status φ) := itemsAt t.calls t.completed

def frames (t : Traffic φ) : List (Except Status φ) := t.sent.filter isFrame

/-- What is sent is delivered once and in order, and what is not sent is not delivered. -/
structure IsOrderly (capacity : Nat) (t : Traffic φ) : Prop where
  received : t.received <+: t.sent
  accounted : t.sent = t.received ++ t.channel.buffer ++ t.lost
  once : t.completed.Nodup
  completed_iff : ∀ place, place ∈ t.completed ↔ ∃ item, t.calls[place]? = some ⟨item, .sent⟩
  bounded : t.channel.buffer.length ≤ capacity

/-! ### Calls and the line -/

theorem waiting?_eq_some_iff {t : Traffic φ} {place : Nat} {item : Except Status φ}
    {number : Nat} :
    t.waiting? place = some (item, number) ↔
      t.calls[place]? = some ⟨item, .waiting number⟩ := by
  unfold waiting?
  split
  · next own ownNumber hcall =>
    rw [hcall]
    constructor
    · intro h
      cases h
      rfl
    · intro h
      cases h
      rfl
  · next hother =>
    constructor
    · intro h
      cases h
    · exact fun h => absurd h (hother item number)

/-- The calls that wait stand in line, in order of their beginning and under numbers of their
own. -/
structure IsAligned (t : Traffic φ) : Prop where
  distinct : (t.channel.line.map Waiter.number).Nodup
  early : ∀ v ∈ t.channel.line, v.number < t.channel.nextNumber
  line : t.channel.line = t.calls.filterMap Call.waiter?

theorem filterMap_waiter?_set {calls : List (Call φ)} {place number : Nat}
    {item : Except Status φ} (h : calls[place]? = some ⟨item, .waiting number⟩)
    (distinct : ((calls.filterMap Call.waiter?).map Waiter.number).Nodup) {call : Call φ}
    (ended : call.waiter? = none) :
    (calls.set place call).filterMap Call.waiter? =
      (calls.filterMap Call.waiter?).filter (·.number != number) := by
  induction calls generalizing place with
  | nil => cases h
  | cons first rest ih =>
      cases place with
      | zero =>
          cases h
          have hfirst : (⟨item, .waiting number⟩ : Call φ).waiter? =
            some ⟨number, item, isFrame item, false⟩ := rfl
          rw [List.filterMap_cons_some hfirst, List.map_cons, List.nodup_cons] at distinct
          rw [List.set_cons_zero, List.filterMap_cons_none ended, List.filterMap_cons_some hfirst,
            List.filter_cons_of_neg (by simp)]
          refine (List.filter_eq_self.2 fun w hw => bne_iff_ne.2 fun hsame => ?_).symm
          exact distinct.1 (List.mem_map.2 ⟨w, hw, hsame⟩)
      | succ place =>
          rw [List.getElem?_cons_succ] at h
          rw [List.set_cons_succ]
          cases hfirst : first.waiter? with
          | none =>
              rw [List.filterMap_cons_none hfirst] at distinct ⊢
              rw [List.filterMap_cons_none hfirst]
              exact ih h distinct
          | some w =>
              rw [List.filterMap_cons_some hfirst, List.map_cons, List.nodup_cons] at distinct
              have hmem : number ∈ (rest.filterMap Call.waiter?).map Waiter.number :=
                List.mem_map.2 ⟨_, List.mem_filterMap.2 ⟨_, List.mem_of_getElem? h, rfl⟩, rfl⟩
              have hother : w.number ≠ number := fun hsame => distinct.1 (hsame ▸ hmem)
              rw [List.filterMap_cons_some hfirst, List.filterMap_cons_some hfirst,
                List.filter_cons_of_pos (by simpa using hother), ih h distinct.2]

namespace IsAligned

variable {t : Traffic φ}

theorem exists_waiter? (aligned : t.IsAligned) {place number : Nat} {item : Except Status φ}
    (h : t.waiting? place = some (item, number)) :
    ∃ w, t.channel.waiter? number = some w ∧ w.item = item ∧ w.cancellable = isFrame item := by
  have hline : (⟨number, item, isFrame item, false⟩ : Waiter (Except Status φ)) ∈
      t.channel.line := by
    rw [aligned.line]
    exact List.mem_filterMap.2 ⟨_, List.mem_of_getElem? (waiting?_eq_some_iff.1 h), rfl⟩
  obtain ⟨w, hw, hjoined⟩ := List.mem_map.1 hline
  cases hfound : t.channel.waiter? number with
  | none =>
      have hnumber : w.number = number := congrArg Waiter.number hjoined
      simpa [hnumber] using List.find?_eq_none.1 hfound w hw
  | some found =>
      obtain ⟨hmem, hnumber⟩ := Channel.mem_of_waiter? hfound
      have hdistinct := Channel.map_number_joined t.channel.waiters ▸ aligned.distinct
      have hsame : found = w := List.inj_on_of_nodup_map hdistinct hmem hw
        (hnumber.trans (congrArg Waiter.number hjoined).symm)
      subst hsame
      exact ⟨found, rfl, congrArg Waiter.item hjoined, congrArg Waiter.cancellable hjoined⟩

end IsAligned

theorem look_of_not_waiting {t : Traffic φ} {place : Nat} (h : t.waiting? place = none) :
    t.look place = t := by
  simp only [look, h]

theorem abandon_of_not_waiting {t : Traffic φ} {place : Nat} (h : t.waiting? place = none) :
    t.abandon place = t := by
  simp only [abandon, h]

theorem look_cases {t : Traffic φ} (aligned : t.IsAligned) {place number : Nat}
    {item : Except Status φ} (h : t.waiting? place = some (item, number)) :
    (∃ reason, t.channel.refusal (isFrame item) = some reason ∧
      t.look place = { t with
        channel := t.channel.abandon number
        calls := t.calls.set place ⟨item, .refused reason⟩ }) ∨
    (t.channel.refusal (isFrame item) = none ∧
      t.look place = { t with
        channel := { t.channel with
          waiters := t.channel.waiters.filter (·.number != number)
          buffer := t.channel.buffer ++ [item] }
        calls := t.calls.set place ⟨item, .sent⟩
        completed := t.completed ++ [place] }) ∨
    (t.channel.refusal (isFrame item) = none ∧ t.look place = t) := by
  obtain ⟨w, hw, rfl, hcancellable⟩ := aligned.exists_waiter? h
  cases hrefusal : t.channel.refusal (isFrame w.item) with
  | some reason =>
      refine .inl ⟨reason, rfl, ?_⟩
      simp only [look, h, Channel.wake_of_refusal hw (hcancellable ▸ hrefusal)]
      rfl
  | none =>
      rw [← hcancellable] at hrefusal
      by_cases hgranted : w.granted = true
      · refine .inr (.inl ⟨rfl, ?_⟩)
        simp only [look, h, Channel.wake_of_granted hw hrefusal hgranted]
        rfl
      · refine .inr (.inr ⟨rfl, ?_⟩)
        simp only [look, h, Channel.wake_of_not_granted hw hrefusal hgranted]
        obtain ⟨hlt, hcall⟩ := List.getElem?_eq_some_iff.1 (waiting?_eq_some_iff.1 h)
        have hcalls := List.set_getElem_self hlt
        rw [hcall] at hcalls
        simp only [Fate.ofProgress, told, hcalls]

namespace IsAligned

variable {s t : Traffic φ}

theorem keep (aligned : t.IsAligned) (line : s.channel.line = t.channel.line)
    (next : s.channel.nextNumber = t.channel.nextNumber)
    (calls : s.calls.filterMap Call.waiter? = t.calls.filterMap Call.waiter?) : s.IsAligned where
  distinct := line ▸ aligned.distinct
  early := by
    rw [line, next]
    exact aligned.early
  line := line.trans (aligned.line.trans calls.symm)

theorem leave (aligned : t.IsAligned) {place number : Nat} {item : Except Status φ}
    (h : t.waiting? place = some (item, number)) {call : Call φ} (ended : call.waiter? = none)
    (line : s.channel.line = t.channel.line.filter (·.number != number))
    (next : s.channel.nextNumber = t.channel.nextNumber)
    (calls : s.calls = t.calls.set place call) : s.IsAligned where
  distinct := by
    rw [line]
    exact aligned.distinct.sublist (List.filter_sublist.map _)
  early := by
    rw [line, next]
    exact fun v hv => aligned.early v (List.mem_filter.1 hv).1
  line := by
    rw [line, calls, filterMap_waiter?_set (waiting?_eq_some_iff.1 h)
      (aligned.line ▸ aligned.distinct) ended, aligned.line]

theorem send (aligned : t.IsAligned) (item : Except Status φ) : (t.send item).IsAligned := by
  have hover : ∀ call : Call φ, call.waiter? = none →
      (t.calls ++ [call]).filterMap Call.waiter? = t.calls.filterMap Call.waiter? := by
    intro call ended
    rw [List.filterMap_append, List.filterMap_cons_none ended, List.filterMap_nil, List.append_nil]
  unfold Traffic.send
  rcases t.channel.send_cases item (isFrame item) with ⟨reason, -, h⟩ | ⟨-, h⟩ | ⟨-, h⟩
  · rw [h]
    exact aligned.keep rfl rfl (hover ⟨item, .refused reason⟩ rfl)
  · rw [h]
    exact aligned.keep rfl rfl (hover ⟨item, .sent⟩ rfl)
  · rw [h]
    have hline : ∀ w, (t.channel.waiters ++ [w]).map Channel.joined =
        t.channel.line ++ [Channel.joined w] := fun w => List.map_append
    constructor
    · change ((List.map Channel.joined _).map _).Nodup
      rw [hline, List.map_append, List.nodup_append]
      refine ⟨aligned.distinct, List.nodup_singleton _, ?_⟩
      intro number hnumber other hother hsame
      obtain ⟨v, hv, rfl⟩ := List.mem_map.1 hnumber
      rw [List.map_singleton, List.mem_singleton] at hother
      exact absurd (hsame.trans hother) (Nat.ne_of_lt (aligned.early v hv))
    · change ∀ v ∈ List.map Channel.joined _, v.number < t.channel.nextNumber + 1
      rw [hline]
      intro v hv
      rcases List.mem_append.1 hv with hv | hv
      · exact Nat.lt_succ_of_lt (aligned.early v hv)
      · rw [List.mem_singleton.1 hv]
        exact Nat.lt_succ_self _
    · change List.map Channel.joined _ = _
      rw [hline, aligned.line, List.filterMap_append]
      rfl

theorem look (aligned : t.IsAligned) (place : Nat) : (t.look place).IsAligned := by
  cases h : t.waiting? place with
  | none =>
      rw [look_of_not_waiting h]
      exact aligned
  | some waiting =>
      obtain ⟨item, number⟩ := waiting
      rcases look_cases aligned h with ⟨reason, -, hlook⟩ | ⟨-, hlook⟩ | ⟨-, hlook⟩
      · rw [hlook]
        exact aligned.leave h rfl (t.channel.line_abandon number) rfl rfl
      · rw [hlook]
        refine aligned.leave h rfl ?_ rfl rfl
        exact (List.filter_map (f := Channel.joined) (p := (·.number != number))).symm
      · rw [hlook]
        exact aligned

theorem abandon (aligned : t.IsAligned) (place : Nat) : (t.abandon place).IsAligned := by
  cases h : t.waiting? place with
  | none =>
      rw [abandon_of_not_waiting h]
      exact aligned
  | some waiting =>
      obtain ⟨item, number⟩ := waiting
      simp only [Traffic.abandon, h]
      exact aligned.leave h rfl (t.channel.line_abandon number) rfl rfl

theorem read (aligned : t.IsAligned) : t.read.IsAligned := by
  refine aligned.keep t.channel.line_receive ?_ rfl
  change t.channel.receive.2.nextNumber = _
  unfold Channel.receive
  split <;> rfl

theorem perform (aligned : t.IsAligned) (act : Act φ) : (t.perform act).IsAligned := by
  cases act with
  | send item => exact aligned.send item
  | look place => exact aligned.look place
  | abandon place => exact aligned.abandon place
  | read => exact aligned.read
  | cancel | shut | depart => exact aligned.keep rfl rfl rfl

end IsAligned

/-! ### What is told to a call -/

/-- The call at a place, a new one or one that waited, gets a fate. -/
structure Settles (before : List (Call φ)) (place : Nat) (item : Except Status φ) (fate : Fate)
    (after : List (Call φ)) : Prop where
  eq_ite : ∀ other : Nat,
    after[other]? = if other = place then some ⟨item, fate⟩ else before[other]?
  new_or_waiting : before.length = place ∨ ∃ number, before[place]? = some ⟨item, .waiting number⟩

namespace Settles

variable {calls after : List (Call φ)} {place number : Nat} {item : Except Status φ} {fate : Fate}

theorem append (calls : List (Call φ)) (item : Except Status φ) (fate : Fate) :
    Settles calls calls.length item fate (calls ++ [⟨item, fate⟩]) where
  eq_ite other := by
    rw [List.getElem?_append]
    split
    · next hearly => rw [if_neg (Nat.ne_of_lt hearly)]
    · next hlate =>
      split
      · next hlast =>
        rw [hlast, Nat.sub_self]
        rfl
      · next hafter =>
        rw [List.getElem?_eq_none (by simp; omega), List.getElem?_eq_none (by omega)]
  new_or_waiting := .inl rfl

theorem set (h : calls[place]? = some ⟨item, .waiting number⟩) (fate : Fate) :
    Settles calls place item fate (calls.set place ⟨item, fate⟩) where
  eq_ite other := by
    have hlt : place < calls.length := (List.getElem?_eq_some_iff.1 h).1
    rw [List.getElem?_set, if_pos hlt]
    exact if_congr eq_comm rfl rfl
  new_or_waiting := .inr ⟨number, h⟩

theorem stay (h : calls[place]? = some ⟨item, .waiting number⟩) :
    Settles calls place item (.waiting number) calls where
  eq_ite other := by
    split
    · next hsame => rw [hsame, h]
    · rfl
  new_or_waiting := .inr ⟨number, h⟩

theorem getElem?_self (settles : Settles calls place item fate after) :
    after[place]? = some ⟨item, fate⟩ := by
  rw [settles.eq_ite, if_pos rfl]

theorem getElem?_of_over (settles : Settles calls place item fate after) {other : Nat}
    {call : Call φ} (h : calls[other]? = some call) (ended : call.waiter? = none) :
    after[other]? = some call := by
  rw [settles.eq_ite, if_neg ?_, h]
  rintro rfl
  rcases settles.new_or_waiting with hnew | ⟨number, hwaits⟩
  · exact absurd (List.getElem?_eq_some_iff.1 h).1 (by omega)
  · cases h.symm.trans hwaits
    cases ended

end Settles

/-- What comes of a call that looks at a stream, or is given up: its item is put in, or what is
under way stays as it is. -/
inductive Leads (t : Traffic φ) (place : Nat) (item : Except Status φ) : Traffic φ → Prop where
  | kept {channel : Channel (Except Status φ)} {calls : List (Call φ)} {fate : Fate}
      (settles : Settles t.calls place item fate calls) (unsent : fate ≠ .sent)
      (buffer : channel.buffer = t.channel.buffer) (closed : channel.closed = t.channel.closed) :
      Leads t place item { t with channel, calls }
  | put {channel : Channel (Except Status φ)} {calls : List (Call φ)}
      (settles : Settles t.calls place item .sent calls)
      (refusal : t.channel.refusal (isFrame item) = none)
      (buffer : channel.buffer = t.channel.buffer ++ [item])
      (closed : channel.closed = t.channel.closed) :
      Leads t place item { t with channel, calls, completed := t.completed ++ [place] }

theorem leads_send (t : Traffic φ) (item : Except Status φ) :
    Leads t t.calls.length item (t.send item) := by
  unfold send
  cases hrefusal : t.channel.refusal (isFrame item) with
  | some reason =>
      rw [Channel.send_of_refusal hrefusal]
      exact .kept (.append _ _ _) (by intro h; cases h) rfl rfl
  | none =>
      by_cases hroom : 0 < t.channel.room
      · rw [Channel.send_of_room hrefusal hroom]
        exact .put (.append _ _ _) hrefusal rfl rfl
      · rw [Channel.send_of_full hrefusal hroom]
        exact .kept (.append _ _ _) (by intro h; cases h) rfl rfl

theorem leads_look {t : Traffic φ} (aligned : t.IsAligned) (place : Nat) :
    t.look place = t ∨ ∃ item number, t.calls[place]? = some ⟨item, .waiting number⟩ ∧
      Leads t place item (t.look place) := by
  cases h : t.waiting? place with
  | none => exact .inl (look_of_not_waiting h)
  | some waiting =>
      obtain ⟨item, number⟩ := waiting
      have hcall := waiting?_eq_some_iff.1 h
      refine .inr ⟨item, number, hcall, ?_⟩
      rcases look_cases aligned h with ⟨reason, -, hlook⟩ | ⟨hrefusal, hlook⟩ | ⟨-, hlook⟩
      · rw [hlook]
        exact .kept (.set hcall _) (by intro h; cases h) rfl rfl
      · rw [hlook]
        exact .put (.set hcall _) hrefusal rfl rfl
      · rw [hlook]
        exact .kept (.stay hcall) (by intro h; cases h) rfl rfl

theorem leads_abandon (t : Traffic φ) (place : Nat) :
    t.abandon place = t ∨ ∃ item number, t.calls[place]? = some ⟨item, .waiting number⟩ ∧
      Leads t place item (t.abandon place) := by
  cases h : t.waiting? place with
  | none => exact .inl (abandon_of_not_waiting h)
  | some waiting =>
      obtain ⟨item, number⟩ := waiting
      have hcall := waiting?_eq_some_iff.1 h
      refine .inr ⟨item, number, hcall, ?_⟩
      simp only [abandon, h]
      exact .kept (.set hcall _) (by intro h; cases h) rfl rfl

/-! ### What is sent -/

theorem itemsAt_append (calls : List (Call φ)) (places more : List Nat) :
    itemsAt calls (places ++ more) = itemsAt calls places ++ itemsAt calls more :=
  List.filterMap_append

theorem Settles.itemsAt_eq {calls after : List (Call φ)} {place : Nat} {item : Except Status φ}
    {fate : Fate} (settles : Settles calls place item fate after) {places : List Nat}
    (here : ∀ other ∈ places, other < calls.length) :
    itemsAt after places = itemsAt calls places := by
  refine List.filterMap_congr fun other hother => ?_
  rw [settles.eq_ite]
  split
  · next hsame =>
    rcases settles.new_or_waiting with hnew | ⟨number, hwaits⟩
    · exact absurd (here other hother) (by omega)
    · rw [hsame, hwaits]
      rfl
  · rfl

structure IsCounted (t : Traffic φ) : Prop where
  accounted : t.sent = t.received ++ t.channel.buffer ++ t.lost
  once : t.completed.Nodup
  completed_iff : ∀ place, place ∈ t.completed ↔ ∃ item, t.calls[place]? = some ⟨item, .sent⟩
  gone : t.lost ≠ [] → t.channel.closed = true ∧ t.channel.buffer = []

namespace IsCounted

variable {t : Traffic φ}

theorem lt_of_mem (counted : t.IsCounted) {place : Nat} (h : place ∈ t.completed) :
    place < t.calls.length := by
  obtain ⟨item, hcall⟩ := (counted.completed_iff place).1 h
  exact (List.getElem?_eq_some_iff.1 hcall).1

section Telling

variable {s : Traffic φ} {place : Nat} {item : Except Status φ}

theorem not_mem_of_settles (counted : t.IsCounted) {fate : Fate} {calls : List (Call φ)}
    (settles : Settles t.calls place item fate calls) : place ∉ t.completed := by
  intro h
  obtain ⟨own, hcall⟩ := (counted.completed_iff place).1 h
  rcases settles.new_or_waiting with hnew | ⟨number, hwaits⟩
  · exact absurd (counted.lt_of_mem h) (by omega)
  · cases hcall.symm.trans hwaits

theorem itemsAt_told (counted : t.IsCounted) {fate : Fate} {calls : List (Call φ)}
    (settles : Settles t.calls place item fate calls) :
    itemsAt calls (t.completed ++ [place]) = t.sent ++ [item] := by
  have hitem : itemsAt calls [place] = [item] :=
    List.filterMap_cons_some (by rw [settles.getElem?_self]; rfl)
  rw [itemsAt_append, settles.itemsAt_eq fun _ => counted.lt_of_mem, hitem]
  rfl

theorem sent_of_leads (counted : t.IsCounted) (leads : Leads t place item s) :
    s.sent = t.sent ∨
      (t.channel.refusal (isFrame item) = none ∧ s.sent = t.sent ++ [item]) := by
  cases leads with
  | kept settles => exact .inl (settles.itemsAt_eq fun _ => counted.lt_of_mem)
  | put settles refusal => exact .inr ⟨refusal, counted.itemsAt_told settles⟩

theorem of_leads (counted : t.IsCounted) (leads : Leads t place item s) : s.IsCounted := by
  cases leads with
  | kept settles unsent buffer closed =>
      refine ⟨?_, counted.once, fun other => ?_, ?_⟩
      · rw [buffer]
        exact (settles.itemsAt_eq fun _ => counted.lt_of_mem).trans counted.accounted
      · rw [settles.eq_ite]
        by_cases hsame : other = place
        · rw [if_pos hsame, hsame]
          refine iff_of_false (counted.not_mem_of_settles settles) ?_
          rintro ⟨own, hcall⟩
          cases hcall
          exact unsent rfl
        · rw [if_neg hsame, counted.completed_iff]
      · rw [buffer, closed]
        exact counted.gone
  | @put channel calls settles refusal buffer closed =>
      have hopen := Channel.open_of_refusal refusal
      have hkept : t.lost = [] := by
        by_contra hlost
        rw [(counted.gone hlost).1] at hopen
        cases hopen
      refine ⟨?_, ?_, fun other => ?_, fun hlost => absurd hkept hlost⟩
      · refine (counted.itemsAt_told settles).trans ?_
        rw [counted.accounted, buffer, hkept, List.append_nil, List.append_nil, List.append_assoc]
      · refine List.nodup_append.2 ⟨counted.once, List.nodup_singleton _, ?_⟩
        intro other hother last hlast hsame
        rw [List.mem_singleton.1 hlast] at hsame
        exact counted.not_mem_of_settles settles (hsame ▸ hother)
      · rw [settles.eq_ite, List.mem_append, List.mem_singleton]
        by_cases hsame : other = place
        · rw [if_pos hsame]
          exact iff_of_true (.inr hsame) ⟨item, rfl⟩
        · rw [if_neg hsame, counted.completed_iff]
          exact or_iff_left hsame

end Telling

theorem read (counted : t.IsCounted) : t.read.IsCounted := by
  have haccounted := counted.accounted
  unfold Traffic.read
  cases hbuffer : t.channel.buffer with
  | nil =>
      simp only [Channel.receive, hbuffer]
      refine ⟨?_, counted.once, counted.completed_iff, counted.gone⟩
      simpa using haccounted
  | cons item rest =>
      have hkept : t.lost = [] := by
        by_contra hlost
        rw [(counted.gone hlost).2] at hbuffer
        cases hbuffer
      simp only [Channel.receive, hbuffer]
      refine ⟨?_, counted.once, counted.completed_iff, fun hlost => absurd hkept hlost⟩
      rw [hbuffer] at haccounted
      change t.sent = (t.received ++ [item]) ++ rest ++ t.lost
      rw [haccounted, List.append_cons]

theorem depart (counted : t.IsCounted) : (t.perform .depart).IsCounted := by
  refine ⟨?_, counted.once, counted.completed_iff, fun _ => ⟨rfl, rfl⟩⟩
  change t.sent = t.received ++ [] ++ (t.lost ++ t.channel.buffer)
  rw [counted.accounted, List.append_nil, List.append_assoc]
  by_cases hlost : t.lost = []
  · rw [hlost, List.append_nil, List.nil_append]
  · rw [(counted.gone hlost).2, List.append_nil, List.nil_append]

theorem perform (counted : t.IsCounted) (aligned : t.IsAligned) (act : Act φ) :
    (t.perform act).IsCounted := by
  cases act with
  | send item => exact counted.of_leads (leads_send t item)
  | look place =>
      rcases leads_look aligned place with hsame | ⟨item, number, -, leads⟩
      · rw [Traffic.perform, hsame]
        exact counted
      · exact counted.of_leads leads
  | abandon place =>
      rcases leads_abandon t place with hsame | ⟨item, number, -, leads⟩
      · rw [Traffic.perform, hsame]
        exact counted
      · exact counted.of_leads leads
  | read => exact counted.read
  | cancel => exact ⟨counted.accounted, counted.once, counted.completed_iff, counted.gone⟩
  | shut =>
      refine ⟨counted.accounted, counted.once, counted.completed_iff, fun hlost => ?_⟩
      exact ⟨rfl, (counted.gone hlost).2⟩
  | depart => exact counted.depart

end IsCounted

/-! ### Everything that is done -/

theorem channel_perform {p : Channel (Except Status φ) → Prop} (kept : Channel.IsKept p)
    {t : Traffic φ} (h : p t.channel) (act : Act φ) : p (t.perform act).channel := by
  cases act with
  | send item => exact kept.send _ _ _ h
  | look place =>
      simp only [Traffic.perform, look]
      split
      · exact h
      · next item number _ =>
        have hwake := kept.wake _ number h
        split
        · exact h
        · next hwoken =>
          rw [hwoken] at hwake
          exact hwake
  | abandon place =>
      simp only [Traffic.perform, Traffic.abandon]
      split
      · exact h
      · exact kept.abandon _ _ h
  | read => exact kept.receive _ h
  | cancel => exact kept.cancel _ h
  | shut => exact kept.shut _ h
  | depart => exact kept.close _ h

structure IsSound (capacity : Nat) (t : Traffic φ) : Prop where
  capacity_eq : t.channel.capacity = capacity
  within : t.channel.IsWithin
  aligned : t.IsAligned
  counted : t.IsCounted

theorem IsSound.perform {capacity : Nat} {t : Traffic φ} (sound : t.IsSound capacity)
    (act : Act φ) : (t.perform act).IsSound capacity where
  capacity_eq := channel_perform (Channel.isKept_capacity capacity) sound.capacity_eq act
  within := channel_perform Channel.isKept_isWithin sound.within act
  aligned := sound.aligned.perform act
  counted := sound.counted.perform sound.aligned act

theorem isSound_start (capacity : Nat) : (start capacity : Traffic φ).IsSound capacity where
  capacity_eq := rfl
  within := Nat.zero_le _
  aligned := ⟨List.nodup_nil, List.forall_mem_nil _, rfl⟩
  counted := ⟨rfl, List.nodup_nil, fun place => iff_of_false List.not_mem_nil (by simp [start]),
    fun h => absurd rfl h⟩

theorem channel_run {p : Channel (Except Status φ) → Prop} (kept : Channel.IsKept p)
    {t : Traffic φ} (h : p t.channel) (acts : List (Act φ)) :
    p (acts.foldl Traffic.perform t).channel := by
  induction acts generalizing t with
  | nil => exact h
  | cons act rest ih => exact ih (channel_perform kept h act)

theorem IsSound.run {capacity : Nat} {t : Traffic φ} (sound : t.IsSound capacity)
    (acts : List (Act φ)) : (acts.foldl Traffic.perform t).IsSound capacity := by
  induction acts generalizing t with
  | nil => exact sound
  | cons act rest ih => exact ih (sound.perform act)

theorem isSound_after (capacity : Nat) (acts : List (Act φ)) :
    (after capacity acts).IsSound capacity :=
  (isSound_start capacity).run acts

theorem after_append (capacity : Nat) (acts later : List (Act φ)) :
    after capacity (acts ++ later) = later.foldl perform (after capacity acts) :=
  List.foldl_append

theorem IsSound.isOrderly {capacity : Nat} {t : Traffic φ} (sound : t.IsSound capacity) :
    t.IsOrderly capacity where
  received := by
    rw [sound.counted.accounted, List.append_assoc]
    exact List.prefix_append _ _
  accounted := sound.counted.accounted
  once := sound.counted.once
  completed_iff := sound.counted.completed_iff
  bounded := by
    have hwithin := sound.within
    rw [Channel.IsWithin, sound.capacity_eq] at hwithin
    omega

end Traffic

end ManifestRelay.Stream
