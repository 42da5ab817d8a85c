import ManifestRelay.Cache.Flight

/-!
# Rehearsing a cache

Callers with scripted loaders share one cache.  `Script.perform` lets one call
end before the next begins; `Crowd.run` lets calls overlap, on an agenda of what
happens when.  What is due at one instant happens in the order in which it was
put on the agenda, save that a call that gets its entry goes on at once.
-/

namespace ManifestRelay.Rehearsal.CacheTrial

open Cache

inductive Load (ε ν : Type) where
  | answers (answer : Except ε ν)
  | breaksDown

def Load.answer? {ε ν : Type} : Load ε ν → Option (Except ε ν)
  | .answers answer => some answer
  | .breaksDown => none

inductive Outcome (ε ν : Type) where
  | answered (answer : Except ε ν)
  | cancelled
  | brokeDown
  | aborted

def Load.outcome {ε ν : Type} : Load ε ν → Outcome ε ν
  | .answers answer => .answered answer
  | .breaksDown => .brokeDown

variable {κ ε ν : Type} [DecidableEq κ]

/-! ## One call at a time -/

inductive Step (κ ε ν : Type) where
  | get (key : κ) (load : Load ε ν) (duration : Nat) (cancelled : Bool)
  | advance (duration : Nat)
  | sweep

inductive Shown (ε ν : Type) where
  | nothing
  | got (outcome : Outcome ε ν) (loads : Nat)
  | swept (count : Nat)

structure Script (κ ε ν : Type) where
  flights : Flights κ ε ν
  now : Nat

namespace Script

def initial (lifetimes : Lifetimes) : Script κ ε ν := ⟨.empty lifetimes, 0⟩

def perform (s : Script κ ε ν) : Step κ ε ν → Shown ε ν × Script κ ε ν
  | .advance duration => (.nothing, { s with now := s.now + duration })
  | .sweep =>
      let (count, flights) := s.flights.sweep s.now
      (.swept count, { s with flights })
  | .get key load duration cancelled =>
      match s.flights.receive 0 key cancelled s.now with
      | (.cancelled, flights) => (.got .cancelled 0, { s with flights })
      | (.answered answer, flights) => (.got (.answered answer) 0, { s with flights })
      | (.load, flights) =>
          let now := s.now + duration
          (.got load.outcome 1, ⟨flights.settle 0 load.answer? now, now⟩)

end Script

/-! ## Overlapping calls -/

/-- A caller, with the instants at which it starts, stops waiting and is dropped. -/
structure Caller (κ ε ν : Type) where
  start : Nat
  key : κ
  load : Load ε ν
  duration : Nat
  cancelAt : Option Nat
  abortAt : Option Nat

/-- What happens on the agenda. Calls are known by the position of their caller. -/
inductive Happening where
  | start (call : Nat)
  | turn (call : Nat)
  | loaded (call : Nat)
  | cancel (call : Nat)
  | abort (call : Nat)
  | probe (sweeps : Bool)
  | sweep

structure Report (ε ν : Type) where
  outcome : Outcome ε ν
  loads : Nat
  time : Nat

structure Sight where
  time : Nat
  swept : Option Nat
  size : Nat

structure Crowd (κ ε ν : Type) where
  callers : List (Caller κ ε ν)
  flights : Flights κ ε ν
  /-- What is to come, in order. -/
  agenda : List (Nat × Happening)
  reports : List (Nat × Report ε ν)
  /-- Calls whose loader has been called. -/
  loaders : List Nat
  sights : List Sight

namespace Crowd

/-- Put something on the agenda behind everything that is due by then. -/
def insertDue (time : Nat) (happening : Happening) :
    List (Nat × Happening) → List (Nat × Happening)
  | [] => [(time, happening)]
  | due :: rest =>
      if due.1 ≤ time then due :: insertDue time happening rest
      else (time, happening) :: due :: rest

def schedule (c : Crowd κ ε ν) (time : Nat) (happening : Happening) : Crowd κ ε ν :=
  { c with agenda := insertDue time happening c.agenda }

def goOn (c : Crowd κ ε ν) (time : Nat) (happening : Happening) : Crowd κ ε ν :=
  { c with agenda := (time, happening) :: c.agenda }

def report (c : Crowd κ ε ν) (call : Nat) (outcome : Outcome ε ν) (now : Nat) : Crowd κ ε ν :=
  let loads := if call ∈ c.loaders then 1 else 0
  { c with reports := c.reports ++ [(call, ⟨outcome, loads, now⟩)] }

def isOver (c : Crowd κ ε ν) (call : Nat) : Bool := (c.reports.lookup call).isSome

/-- Calls that hold an entry and have not looked at it yet. -/
def holders (flights : Flights κ ε ν) : List Nat :=
  (flights.calls.filter (·.stage == .holding)).map (·.id)

/-- Replace the state of the cache, and let the calls that now hold an entry go on. -/
def become (c : Crowd κ ε ν) (flights : Flights κ ε ν) (now : Nat) : Crowd κ ε ν :=
  (holders flights).foldr (fun call c => c.goOn now (.turn call)) { c with flights }

def load (c : Crowd κ ε ν) (call duration now : Nat) : Crowd κ ε ν :=
  let c := { c with loaders := call :: c.loaders }
  if duration = 0 then c.goOn now (.loaded call) else c.schedule (now + duration) (.loaded call)

def happen (c : Crowd κ ε ν) (now : Nat) : Happening → Crowd κ ε ν
  | .start call =>
      match c.callers[call]? with
      | none => c
      | some caller =>
          if c.isOver call then c
          else if !c.flights.lifetimes.isEnabled then c.load call caller.duration now
          else
            let flights := c.flights.arrive call caller.key now
            if caller.cancelAt.any (· ≤ now) then
              { c with flights := flights.leave call }.report call .cancelled now
            else c.become flights now
  | .turn call =>
      match c.callers[call]?, c.flights.call? call with
      | some caller, some ⟨_, _, _, .holding⟩ =>
          match c.flights.consult call now with
          | (some answer, flights) => (c.report call (.answered answer) now).become flights now
          | (none, flights) => { c with flights }.load call caller.duration now
      | _, _ => c
  | .loaded call =>
      match c.callers[call]? with
      | some caller =>
          if c.isOver call then c
          else
            (c.report call caller.load.outcome now).become
              (c.flights.settle call caller.load.answer? now) now
      | none => c
  | .cancel call =>
      match c.flights.call? call with
      | some ⟨_, _, _, .waiting⟩ =>
          (c.report call .cancelled now).become (c.flights.leave call) now
      | _ => c
  | .abort call =>
      if c.isOver call then c
      else (c.report call .aborted now).become (c.flights.leave call) now
  | .probe sweeps =>
      let (count, flights) := c.flights.sweep now
      let flights := if sweeps then flights else c.flights
      { c with
        flights
        sights := ⟨now, if sweeps then some count else none, flights.size⟩ :: c.sights }
  | .sweep => { c with flights := (c.flights.sweep now).2 }

/-- Let what is on the agenda happen, at most `fuel` things. -/
def runFor : Nat → Crowd κ ε ν → Crowd κ ε ν
  | 0, c => c
  | fuel + 1, c =>
      match c.agenda with
      | [] => c
      | (now, happening) :: rest => runFor fuel ({ c with agenda := rest }.happen now happening)

def sweepTimes (lifetimes : Lifetimes) (stopAt : Nat) : List Nat :=
  let period := lifetimes.sweepPeriod
  if !lifetimes.isEnabled || period = 0 then []
  else (List.range ((stopAt - 1) / period)).map fun i => (i + 1) * period

def sweeperEnd (lifetimes : Lifetimes) (stopAt : Nat) : Nat :=
  if lifetimes.isEnabled then stopAt else 0

/-- Let callers, probes and a sweeper loose on an empty cache. -/
def run (lifetimes : Lifetimes) (callers : List (Caller κ ε ν)) (probes : List (Nat × Bool))
    (sweepUntil : Option Nat) : Crowd κ ε ν :=
  let sweeps := (sweepUntil.map (sweepTimes lifetimes)).getD []
  let happenings : List (Nat × Happening) :=
    (callers.zipIdx.flatMap fun (caller, call) =>
      (caller.start, .start call) ::
        ((caller.cancelAt.map (·, .cancel call)).toList ++
          (caller.abortAt.map (·, .abort call)).toList)) ++
      sweeps.map (·, .sweep) ++ probes.map fun (time, sweeping) => (time, .probe sweeping)
  let start : Crowd κ ε ν := ⟨callers, .empty lifetimes, [], [], [], []⟩
  let crowd := happenings.foldl (fun c (time, happening) => c.schedule time happening) start
  crowd.runFor (2 * happenings.length + callers.length * (callers.length + 2))

end Crowd

end ManifestRelay.Rehearsal.CacheTrial
