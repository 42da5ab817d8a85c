import ManifestRelay.Proofs.Cache.Likeness
import ManifestRelay.Proofs.Cache.Operations
import ManifestRelay.Proofs.Machine

/-!
# What is attempted at a cache

A cache is a machine whose acts are what callers, their loaders and sweepers attempt.
An attempt that is not possible changes nothing, and any other shows as an event of a call;
sweeps show as nothing.  Which of the calls that wait is served next is not up to the cache.
The attempts that are possible are the steps of interleavings.
-/

namespace ManifestRelay.Cache

variable {κ ε ν : Type}

inductive Move (ε ν : Type) where
  | join
  /-- Get the entry, unless somebody holds it. -/
  | grasp
  | look
  | load (answer : Except ε ν)
  /-- Give up, be dropped, or the loader breaks down. -/
  | leave

inductive Act (ε ν : Type) where
  | wait (duration : Nat)
  | move (id : Nat) (move : Move ε ν)
  | sweep

namespace Act

def isSweep : Act ε ν → Bool
  | .sweep => true
  | .wait _ | .move .. => false

/-- Whether an act is one of the calls for some keys, or of no call. -/
def isFor (keyOf : Nat → κ) (chosen : κ → Bool) : Act ε ν → Bool
  | .move id _ => chosen (keyOf id)
  | .wait _ | .sweep => true

def duration : Act ε ν → Nat
  | .wait duration => duration
  | .move .. | .sweep => 0

end Act

def Event.origin? : Event κ ε ν → Option (Nat × Move ε ν)
  | .joined id _ => some (id, .join)
  | .grasped id => some (id, .grasp)
  | .left id => some (id, .leave)
  | .answered id _ | .began id => some (id, .look)
  | .loaded id answer => some (id, .load answer)
  | .swept _ => none

theorem Event.isFor_of_origin? {event : Event κ ε ν} {id : Nat} {move : Move ε ν}
    (h : event.origin? = some (id, move)) (keyOf : Nat → κ) (chosen : κ → Bool) :
    event.isFor keyOf chosen = chosen (keyOf id) := by
  cases event <;> cases h <;> rfl

namespace Flights

def unused (lifetimes : Lifetimes) : Machine.Scene (Event κ ε ν) (Flights κ ε ν) :=
  ⟨0, .empty lifetimes, []⟩

/-- What comes of a move of a call in flight. -/
def proceed (s : Flights κ ε ν) (now : Nat) (c : Call κ) :
    Move ε ν → Option (Event κ ε ν) × Flights κ ε ν
  | .join => (none, s)
  | .grasp =>
      if c.stage = .waiting ∧ s.isHeld c.entry = false then
        (some (.grasped c.id), s.advance c.id .holding)
      else (none, s)
  | .look =>
      if c.stage = .holding then
        match (s.entries[c.entry]?).bind fun entry => entry.fresh? now with
        | some answer => (some (.answered c.id answer), s.depart c.id)
        | none => (some (.began c.id), s.advance c.id .loading)
      else (none, s)
  | .load answer =>
      if c.stage = .loading then
        (some (.loaded c.id answer), (s.keep c.entry answer now).depart c.id)
      else (none, s)
  | .leave => (some (.left c.id), s.depart c.id)

theorem proceed_of_fst_eq_none {s : Flights κ ε ν} {now : Nat} {c : Call κ} {move : Move ε ν}
    (h : (s.proceed now c move).1 = none) : s.proceed now c move = (none, s) := by
  cases move with
  | join => rfl
  | grasp | load =>
      simp only [proceed] at h ⊢
      split at h
      · cases h
      · next hrefused => exact if_neg hrefused
  | look =>
      simp only [proceed] at h ⊢
      split at h
      · split at h <;> cases h
      · next hrefused => exact if_neg hrefused
  | leave => cases h

variable [DecidableEq κ]

/-- What comes of a move; a call that is not in flight can only join. -/
def undertake (s : Flights κ ε ν) (now id : Nat) (key : κ) (move : Move ε ν) :
    Option (Event κ ε ν) × Flights κ ε ν :=
  match s.call? id with
  | some c => s.proceed now c move
  | none =>
      match move with
      | .join => (some (.joined id key), s.join id key now)
      | .grasp | .look | .load _ | .leave => (none, s)

/-- What comes of a move where nothing is kept: every call loads at once, by itself. -/
def bypass (id : Nat) : Move ε ν → Option (Event κ ε ν)
  | .join => some (.began id)
  | .load answer => some (.loaded id answer)
  | .leave => some (.left id)
  | .grasp | .look => none

/-- What comes of an act at an instant; `keyOf` has the key that each call asks for. -/
def attempt (keyOf : Nat → κ) (now : Nat) (s : Flights κ ε ν) :
    Act ε ν → Option (Event κ ε ν) × Flights κ ε ν
  | .wait _ => (none, s)
  | .sweep => (none, (s.sweep now).2)
  | .move id move =>
      if s.lifetimes.isEnabled then s.undertake now id (keyOf id) move else (bypass id move, s)

def machine (keyOf : Nat → κ) : Machine (Act ε ν) (Event κ ε ν) (Flights κ ε ν) where
  attempt now s act := s.attempt keyOf now act
  duration := Act.duration

variable {keyOf : Nat → κ} {chosen : κ → Bool} {now : Nat} {s t : Flights κ ε ν}

/-! ### Moves are steps of interleavings -/

theorem undertake_of_call? {id : Nat} {c : Call κ} (h : s.call? id = some c) (key : κ)
    (move : Move ε ν) : s.undertake now id key move = s.proceed now c move := by
  simp only [undertake, h]

theorem undertake_of_fst_eq_none {id : Nat} {key : κ} {move : Move ε ν}
    (h : (s.undertake now id key move).1 = none) : s.undertake now id key move = (none, s) := by
  cases hcall : s.call? id with
  | some c =>
      rw [undertake_of_call? hcall] at h ⊢
      exact proceed_of_fst_eq_none h
  | none =>
      simp only [undertake, hcall] at h ⊢
      cases move with
      | join => cases h
      | grasp | look | load | leave => rfl

theorem step_of_proceed {c : Call κ} {move : Move ε ν} {event : Event κ ε ν}
    (consistent : s.Consistent) (hc : c ∈ s.calls) (h : s.proceed now c move = (some event, t)) :
    Step now event s t ∧ event.origin? = some (c.id, move) ∧ event.IsNamed keyOf := by
  cases move with
  | join => cases h
  | grasp =>
      simp only [proceed] at h
      split at h
      · next hfree =>
        cases h
        exact ⟨.grasp hc hfree.1 hfree.2, rfl, trivial⟩
      · cases h
  | look =>
      obtain ⟨entry, hfound⟩ := consistent.found hc
      simp only [proceed, hfound, Option.bind_some] at h
      split at h
      · next hholding =>
        cases hfresh : entry.fresh? now with
        | some answer =>
            rw [hfresh] at h
            cases h
            exact ⟨.answer hc hholding hfound hfresh, rfl, trivial⟩
        | none =>
            rw [hfresh] at h
            cases h
            exact ⟨.begin hc hholding hfound hfresh, rfl, trivial⟩
      · cases h
  | load answer =>
      simp only [proceed] at h
      split at h
      · next hloading =>
        cases h
        exact ⟨.load answer hc hloading, rfl, trivial⟩
      · cases h
  | leave =>
      cases h
      exact ⟨.leave hc, rfl, trivial⟩

/-- The moves that are possible, and what comes of them, are the steps of interleavings. -/
theorem undertake_eq_some_iff {id : Nat} {move : Move ε ν} {event : Event κ ε ν}
    (enabled : s.lifetimes.isEnabled = true) (consistent : s.Consistent) :
    s.undertake now id (keyOf id) move = (some event, t) ↔
      Step now event s t ∧ event.origin? = some (id, move) ∧ event.IsNamed keyOf := by
  constructor
  · intro h
    cases hcall : s.call? id with
    | some c =>
        rw [undertake_of_call? hcall] at h
        obtain ⟨hmem, rfl⟩ := call?_eq_some hcall
        exact step_of_proceed consistent hmem h
    | none =>
        simp only [undertake, hcall] at h
        cases move with
        | join =>
            cases h
            have hfresh : ∀ c ∈ s.calls, c.id ≠ id := by simpa [call?] using hcall
            exact ⟨.join id (keyOf id) enabled hfresh, rfl, rfl⟩
        | grasp | look | load | leave => cases h
  · rintro ⟨step, horigin, named⟩
    cases step with
    | join other key _ fresh =>
        cases horigin
        have hcall : s.call? id = none := by simpa [call?] using fresh
        rw [← show key = keyOf id from named]
        simp only [undertake, hcall]
    | grasp mem waiting free =>
        cases horigin
        rw [undertake_of_call? (call?_of_mem consistent mem)]
        exact if_pos ⟨waiting, free⟩
    | leave mem =>
        cases horigin
        rw [undertake_of_call? (call?_of_mem consistent mem)]
        rfl
    | answer mem holding found kept | begin mem holding found kept =>
        cases horigin
        rw [undertake_of_call? (call?_of_mem consistent mem)]
        simp only [proceed, if_pos holding, found, Option.bind_some, kept]
    | load answer mem loading =>
        cases horigin
        rw [undertake_of_call? (call?_of_mem consistent mem)]
        exact if_pos loading
    | sweep => cases horigin

theorem perform_wait (c : Machine.Scene (Event κ ε ν) (Flights κ ε ν)) (duration : Nat) :
    (machine keyOf).perform c (.wait duration) = ⟨c.now + duration, c.state, c.shown⟩ :=
  congrArg (Machine.Scene.mk _ _) (List.append_nil _)

theorem perform_sweep (c : Machine.Scene (Event κ ε ν) (Flights κ ε ν)) :
    (machine keyOf).perform c .sweep = ⟨c.now, (c.state.sweep c.now).2, c.shown⟩ :=
  congrArg (Machine.Scene.mk _ _) (List.append_nil _)

theorem Step.exists_act (keyOf : Nat → κ) {c : Machine.Scene (Event κ ε ν) (Flights κ ε ν)}
    {event : Event κ ε ν} (step : Step c.now event c.state t)
    (enabled : c.state.lifetimes.isEnabled = true) (consistent : c.state.Consistent) (named : event.IsNamed keyOf) :
    ∃ act, (machine keyOf).perform c act = ⟨c.now, t,
      c.shown ++ [(c.now, event)].filter fun entry => entry.2.isFor keyOf fun _ => true⟩ := by
  cases horigin : event.origin? with
  | none =>
      cases step with
      | sweep => exact ⟨.sweep, (perform_sweep c).trans (by simp [Event.isFor])⟩
      | join | grasp | leave | answer | begin | load => cases horigin
  | some origin =>
      obtain ⟨id, move⟩ := origin
      have hmove := (undertake_eq_some_iff enabled consistent).2 ⟨step, horigin, named⟩
      refine ⟨.move id move, ?_⟩
      simp [Machine.perform, machine, attempt, Act.duration, enabled, hmove,
        Event.isFor_of_origin? horigin]

/-- Every interleaving comes of acts. -/
theorem Run.exists_acts {lifetimes : Lifetimes} {history : List (Nat × Event κ ε ν)}
    (run : Run lifetimes history now s) (enabled : lifetimes.isEnabled = true)
    (named : ∀ entry ∈ history, entry.2.IsNamed keyOf) :
    ∃ acts : List (Act ε ν), acts.foldl (machine keyOf).perform (unused lifetimes) =
      ⟨now, s, history.filter fun entry => entry.2.isFor keyOf fun _ => true⟩ := by
  induction run with
  | start => exact ⟨[], rfl⟩
  | @step history past now event s t run later step ih =>
      obtain ⟨acts, hacts⟩ := ih fun entry hentry => named entry (List.mem_append_left _ hentry)
      have henabled : s.lifetimes.isEnabled = true := run.lifetimes_eq ▸ enabled
      obtain ⟨act, hact⟩ := Step.exists_act keyOf
        (c := ⟨now, s, history.filter fun entry => entry.2.isFor keyOf fun _ => true⟩) step
        henabled run.consistent (named (now, event) (by simp))
      refine ⟨acts ++ [.wait (now - past), act], ?_⟩
      rw [List.foldl_append, hacts, List.foldl_cons, List.foldl_cons, List.foldl_nil,
        perform_wait, Nat.add_sub_cancel' later, hact, List.filter_append]

/-! ### Attempts at caches that look alike -/

theorem IsSound.undertake (sound : s.IsSound keyOf now) (enabled : s.lifetimes.isEnabled = true)
    (id : Nat) (move : Move ε ν) : (s.undertake now id (keyOf id) move).2.IsSound keyOf now := by
  cases h : s.undertake now id (keyOf id) move with
  | mk event t =>
      cases event with
      | none =>
          rw [← h, undertake_of_fst_eq_none (by rw [h])]
          exact sound
      | some event =>
          obtain ⟨step, -, named⟩ := (undertake_eq_some_iff enabled sound.consistent).1 h
          exact sound.step step named

theorem IsSound.attempt (sound : s.IsSound keyOf now) (act : Act ε ν) :
    (s.attempt keyOf now act).2.IsSound keyOf (now + act.duration) := by
  cases act with
  | wait duration => exact sound.later (Nat.le_add_right now duration)
  | sweep => exact sound.step .sweep trivial
  | move id move =>
      rw [Flights.attempt]
      split
      · next enabled => exact sound.undertake enabled id move
      · exact sound

/-- A move that is possible in one of two caches that look alike is possible in the other. -/
theorem Alike.undertake_some (alike : Alike chosen now s t) (hs : s.IsSound keyOf now)
    (ht : t.IsSound keyOf now) (enabled : s.lifetimes.isEnabled = true) {id : Nat}
    (visible : chosen (keyOf id) = true) {move : Move ε ν} {event : Event κ ε ν}
    {next : Flights κ ε ν} (h : s.undertake now id (keyOf id) move = (some event, next)) :
    ∃ other, t.undertake now id (keyOf id) move = (some event, other) ∧
      Alike chosen now next other := by
  obtain ⟨step, horigin, named⟩ := (undertake_eq_some_iff enabled hs.consistent).1 h
  have hvisible : event.isFor keyOf chosen = true :=
    (Event.isFor_of_origin? horigin keyOf chosen).trans visible
  obtain ⟨other, step', halike⟩ := alike.step hs ht named hvisible step
  have enabled' : t.lifetimes.isEnabled = true := alike.lifetimes ▸ enabled
  exact ⟨other, (undertake_eq_some_iff enabled' ht.consistent).2 ⟨step', horigin, named⟩, halike⟩

theorem Alike.undertake (alike : Alike chosen now s t) (hs : s.IsSound keyOf now)
    (ht : t.IsSound keyOf now) (enabled : s.lifetimes.isEnabled = true) {id : Nat}
    (visible : chosen (keyOf id) = true) (move : Move ε ν) :
    (s.undertake now id (keyOf id) move).1 = (t.undertake now id (keyOf id) move).1 ∧
      Alike chosen now (s.undertake now id (keyOf id) move).2
        (t.undertake now id (keyOf id) move).2 := by
  have enabled' : t.lifetimes.isEnabled = true := alike.lifetimes ▸ enabled
  cases hsmove : s.undertake now id (keyOf id) move with
  | mk event next =>
      cases event with
      | some event =>
          obtain ⟨other, htmove, halike⟩ := alike.undertake_some hs ht enabled visible hsmove
          rw [htmove]
          exact ⟨rfl, halike⟩
      | none =>
          cases htmove : t.undertake now id (keyOf id) move with
          | mk event other =>
              cases event with
              | some event =>
                  obtain ⟨_, himpossible, -⟩ :=
                    alike.symm.undertake_some ht hs enabled' visible htmove
                  rw [hsmove] at himpossible
                  cases himpossible
              | none =>
                  rw [undertake_of_fst_eq_none (by rw [hsmove])] at hsmove
                  rw [undertake_of_fst_eq_none (by rw [htmove])] at htmove
                  cases hsmove
                  cases htmove
                  exact ⟨rfl, alike⟩

theorem filter_move (sound : s.IsSound keyOf now) (id : Nat) (move : Move ε ν) :
    (s.attempt keyOf now (.move id move)).1.filter (Event.isFor keyOf chosen) =
      if chosen (keyOf id) = true then (s.attempt keyOf now (.move id move)).1 else none := by
  have hevent : ∀ event, (s.attempt keyOf now (.move id move)).1 = some event →
      event.isFor keyOf chosen = chosen (keyOf id) := by
    intro event h
    rw [attempt] at h
    split at h
    · next enabled =>
      have hmove : s.undertake now id (keyOf id) move =
          (some event, (s.undertake now id (keyOf id) move).2) := Prod.ext h rfl
      obtain ⟨-, horigin, -⟩ := (undertake_eq_some_iff enabled sound.consistent).1 hmove
      exact Event.isFor_of_origin? horigin keyOf chosen
    · cases move <;> cases h <;> rfl
  cases h : (s.attempt keyOf now (.move id move)).1 with
  | none => simp
  | some event => rw [Option.filter_some, hevent event h]

/-- Sweeps, and the moves of calls for other keys, do not show. -/
theorem Alike.attempt_hidden (sound : s.IsSound keyOf now) {act : Act ε ν}
    (hidden : act = .sweep ∨ act.isFor keyOf chosen = false) :
    (s.attempt keyOf now act).1.filter (Event.isFor keyOf chosen) = none ∧
      Alike chosen now (s.attempt keyOf now act).2 s := by
  cases act with
  | wait => rcases hidden with h | h <;> cases h
  | sweep => exact ⟨rfl, Step.sweep.alike sound trivial rfl⟩
  | move id move =>
      have hid : chosen (keyOf id) = false := hidden.resolve_left nofun
      refine ⟨by rw [filter_move sound, hid]; rfl, ?_⟩
      rw [Flights.attempt]
      split
      · next enabled =>
        cases h : s.undertake now id (keyOf id) move with
        | mk event t =>
            cases event with
            | none =>
                rw [undertake_of_fst_eq_none (by rw [h])] at h
                cases h
                exact .refl s
            | some event =>
                obtain ⟨step, horigin, named⟩ :=
                  (undertake_eq_some_iff enabled sound.consistent).1 h
                have hother := (Event.isFor_of_origin? horigin keyOf chosen).trans hid
                exact step.alike sound named hother
      · exact .refl s

theorem Alike.attempt (alike : Alike chosen now s t) (hs : s.IsSound keyOf now)
    (ht : t.IsSound keyOf now) (act : Act ε ν) :
    (s.attempt keyOf now act).1.filter (Event.isFor keyOf chosen) =
        (t.attempt keyOf now act).1.filter (Event.isFor keyOf chosen) ∧
      Alike chosen now (s.attempt keyOf now act).2 (t.attempt keyOf now act).2 := by
  by_cases hidden : act = .sweep ∨ act.isFor keyOf chosen = false
  · obtain ⟨hsnone, hsalike⟩ := Alike.attempt_hidden hs hidden
    obtain ⟨htnone, htalike⟩ := Alike.attempt_hidden ht hidden
    exact ⟨hsnone.trans htnone.symm, hsalike.trans (alike.trans htalike.symm)⟩
  · obtain ⟨hsweep, hvisible⟩ := not_or.1 hidden
    cases act with
    | wait => exact ⟨rfl, alike⟩
    | sweep => exact absurd rfl hsweep
    | move id move =>
        have visible : chosen (keyOf id) = true := by simpa [Act.isFor] using hvisible
        simp only [Flights.attempt, ← alike.lifetimes]
        split
        · next enabled =>
          obtain ⟨hevent, hnext⟩ := alike.undertake hs ht enabled visible move
          exact ⟨congrArg _ hevent, hnext⟩
        · exact ⟨rfl, alike⟩

/-- Two caches that calls for some keys cannot tell apart, from an instant on. -/
structure Twins (keyOf : Nat → κ) (chosen : κ → Bool) (now : Nat) (s t : Flights κ ε ν) :
    Prop where
  left : s.IsSound keyOf now
  right : t.IsSound keyOf now
  alike : Alike chosen now s t

theorem twins_empty (lifetimes : Lifetimes) (keyOf : Nat → κ) (chosen : κ → Bool) :
    Twins keyOf chosen 0 (.empty lifetimes : Flights κ ε ν) (.empty lifetimes) :=
  ⟨.empty lifetimes, .empty lifetimes, .refl _⟩

theorem Twins.later (twins : Twins keyOf chosen now s t) {time : Nat} (later : now ≤ time) :
    Twins keyOf chosen time s t :=
  ⟨twins.left.later later, twins.right.later later, twins.alike.later later⟩

/-- Calls for some keys notice neither sweeps nor what is attempted for other keys. -/
theorem unwinds (keyOf : Nat → κ) (chosen : κ → Bool) :
    (machine keyOf : Machine (Act ε ν) (Event κ ε ν) (Flights κ ε ν)).Unwinds
      (Event.isFor keyOf chosen) (fun act => act = .sweep ∨ act.isFor keyOf chosen = false)
      (Twins keyOf chosen) where
  attempt twins act := by
    obtain ⟨hevent, hnext⟩ := twins.alike.attempt twins.left twins.right act
    exact ⟨hevent, twins.left.attempt act, twins.right.attempt act,
      hnext.later (Nat.le_add_right _ _)⟩
  hide {now s t} twins {act} hidden := by
    obtain ⟨hnone, hnext⟩ := Alike.attempt_hidden twins.left hidden
    have hduration : act.duration = 0 := by
      cases act with
      | wait => rcases hidden with h | h <;> cases h
      | move | sweep => rfl
    have hsound := twins.left.attempt act
    rw [hduration, Nat.add_zero] at hsound
    exact ⟨hduration, hnone, hsound, twins.right, hnext.trans twins.alike⟩

end Flights

end ManifestRelay.Cache
