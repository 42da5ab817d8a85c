import ManifestRelay.Cache.Flight

/-!
# Interleavings at a cache

What calls, their loaders and sweeps do at a cache is cut into steps that
nothing can come in between.  Any call that waits may get an entry that nobody
holds, so that nothing depends on the order in which waiting calls are served.
-/

namespace ManifestRelay.Cache

inductive Event (κ ε ν : Type) where
  | joined (id : Nat) (key : κ)
  | grasped (id : Nat)
  /-- A call gives up, is dropped, or its loader breaks down. -/
  | left (id : Nat)
  /-- The holder of an entry leaves with the answer that it finds. -/
  | answered (id : Nat) (answer : Except ε ν)
  | began (id : Nat)
  /-- A loader ends, and its call leaves. -/
  | loaded (id : Nat) (answer : Except ε ν)
  | swept (count : Nat)
deriving Repr

variable {κ ε ν : Type} [DecidableEq κ]

namespace Flights

inductive Step (now : Nat) : Event κ ε ν → Flights κ ε ν → Flights κ ε ν → Prop where
  | join {s : Flights κ ε ν} (id : Nat) (key : κ)
      (enabled : s.lifetimes.isEnabled = true) (fresh : ∀ c ∈ s.calls, c.id ≠ id) :
      Step now (.joined id key) s (s.join id key now)
  | grasp {s : Flights κ ε ν} {c : Call κ} (mem : c ∈ s.calls)
      (waiting : c.stage = .waiting) (free : s.isHeld c.entry = false) :
      Step now (.grasped c.id) s (s.advance c.id .holding)
  | leave {s : Flights κ ε ν} {c : Call κ} (mem : c ∈ s.calls) :
      Step now (.left c.id) s (s.depart c.id)
  | answer {s : Flights κ ε ν} {c : Call κ} {entry : Entry ε ν} {answer : Except ε ν}
      (mem : c ∈ s.calls) (holding : c.stage = .holding)
      (found : s.entries[c.entry]? = some entry) (kept : entry.fresh? now = some answer) :
      Step now (.answered c.id answer) s (s.depart c.id)
  | begin {s : Flights κ ε ν} {c : Call κ} {entry : Entry ε ν}
      (mem : c ∈ s.calls) (holding : c.stage = .holding)
      (found : s.entries[c.entry]? = some entry) (stale : entry.fresh? now = none) :
      Step now (.began c.id) s (s.advance c.id .loading)
  | load {s : Flights κ ε ν} {c : Call κ} (answer : Except ε ν)
      (mem : c ∈ s.calls) (loading : c.stage = .loading) :
      Step now (.loaded c.id answer) s ((s.keep c.entry answer now).depart c.id)
  | sweep {s : Flights κ ε ν} : Step now (.swept (s.sweep now).1) s (s.sweep now).2

inductive Steps (now : Nat) :
    List (Event κ ε ν) → Flights κ ε ν → Flights κ ε ν → Prop where
  | refl (s : Flights κ ε ν) : Steps now [] s s
  | head {event : Event κ ε ν} {events : List (Event κ ε ν)} {first middle last : Flights κ ε ν}
      (step : Step now event first middle) (steps : Steps now events middle last) :
      Steps now (event :: events) first last

/-- The states that a cache can come to, each with its history and the time. -/
inductive Run (lifetimes : Lifetimes) :
    List (Nat × Event κ ε ν) → Nat → Flights κ ε ν → Prop where
  | start : Run lifetimes [] 0 (.empty lifetimes)
  | step {history : List (Nat × Event κ ε ν)} {past now : Nat} {event : Event κ ε ν}
      {s t : Flights κ ε ν} (run : Run lifetimes history past s) (later : past ≤ now)
      (step : Step now event s t) : Run lifetimes (history ++ [(now, event)]) now t

end Flights

end ManifestRelay.Cache
