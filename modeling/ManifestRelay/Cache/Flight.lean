import ManifestRelay.Cache.Entry

/-!
# Calls in flight

A call for a key takes part in the entry that the index has for the key, and
makes one if there is none.  One call of an entry holds it, and the others wait
in order of arrival.  The holder answers from a fresh entry or loads a new
answer; when it leaves, with an answer or without one, the first that waits
holds the entry next.

A sweep forgets the expired entries that no call takes part in.  Entries have
numbers, so that it can be said which entry a call takes part in and which one
the index has.
-/

namespace ManifestRelay.Cache

inductive Stage where
  | waiting
  | holding
  | loading
deriving DecidableEq, Repr

/-- A call that has not left. -/
structure Call (κ : Type) where
  id : Nat
  key : κ
  entry : Nat
  stage : Stage
deriving DecidableEq, Repr

/-- Entries, the index that finds them, and the calls in flight. -/
structure Flights (κ ε ν : Type) where
  lifetimes : Lifetimes
  entries : List (Entry ε ν)
  /-- The number of the entry of each key that has one. -/
  index : List (κ × Nat)
  /-- Calls in flight in order of arrival. -/
  calls : List (Call κ)

namespace Flights

variable {κ ε ν : Type} [DecidableEq κ]

def empty (lifetimes : Lifetimes) : Flights κ ε ν := ⟨lifetimes, [], [], []⟩

def size (s : Flights κ ε ν) : Nat := s.index.length

def call? (s : Flights κ ε ν) (id : Nat) : Option (Call κ) := s.calls.find? (·.id == id)

def isHeld (s : Flights κ ε ν) (entry : Nat) : Bool :=
  s.calls.any fun c => c.entry == entry && c.stage != .waiting

def isInUse (s : Flights κ ε ν) (entry : Nat) : Bool := s.calls.any (·.entry == entry)

/-- Make the first call that waits for an entry its holder. -/
def promoteFirst (entry : Nat) : List (Call κ) → List (Call κ)
  | [] => []
  | c :: rest =>
      if c.entry = entry ∧ c.stage = .waiting then { c with stage := .holding } :: rest
      else c :: promoteFirst entry rest

/-- Hand an entry that nobody holds to the first call that waits for it. -/
def handOver (s : Flights κ ε ν) (entry : Nat) : Flights κ ε ν :=
  if s.isHeld entry then s else { s with calls := promoteFirst entry s.calls }

/-- The number of the entry of a key, which is made if there is none. -/
def locate (s : Flights κ ε ν) (key : κ) (now : Nat) : Nat × Flights κ ε ν :=
  match s.index.lookup key with
  | some entry => (entry, s)
  | none =>
      let entry := s.entries.length
      (entry, { s with
        entries := s.entries ++ [.vacant now]
        index := s.index ++ [(key, entry)] })

def join (s : Flights κ ε ν) (id : Nat) (key : κ) (now : Nat) : Flights κ ε ν :=
  let (entry, located) := s.locate key now
  { located with calls := located.calls ++ [⟨id, key, entry, .waiting⟩] }

def depart (s : Flights κ ε ν) (id : Nat) : Flights κ ε ν :=
  { s with calls := s.calls.filter (·.id != id) }

def advance (s : Flights κ ε ν) (id : Nat) (stage : Stage) : Flights κ ε ν :=
  { s with calls := s.calls.map fun c => if c.id = id then { c with stage } else c }

def keep (s : Flights κ ε ν) (entry : Nat) (answer : Except ε ν) (now : Nat) : Flights κ ε ν :=
  { s with entries := s.entries.set entry (.filled s.lifetimes answer now) }

def arrive (s : Flights κ ε ν) (id : Nat) (key : κ) (now : Nat) : Flights κ ε ν :=
  (s.join id key now).handOver (s.locate key now).1

/-- A call leaves, for whatever reason. -/
def leave (s : Flights κ ε ν) (id : Nat) : Flights κ ε ν :=
  match s.call? id with
  | some c => (s.depart id).handOver c.entry
  | none => s

/-- The holder looks at its entry: it leaves with a fresh answer, or begins to load. -/
def consult (s : Flights κ ε ν) (id : Nat) (now : Nat) :
    Option (Except ε ν) × Flights κ ε ν :=
  match (s.call? id).bind fun c => (s.entries[c.entry]?).bind (·.fresh? now) with
  | some answer => (some answer, s.leave id)
  | none => (none, s.advance id .loading)

/-- A call has loaded an answer: the entry keeps it, and the call leaves. -/
def store (s : Flights κ ε ν) (id : Nat) (answer : Except ε ν) (now : Nat) : Flights κ ε ν :=
  match s.call? id with
  | some c => (s.keep c.entry answer now).leave id
  | none => s

def isIdle (s : Flights κ ε ν) (now : Nat) (entry : Nat) : Bool :=
  !s.isInUse entry && (s.entries[entry]?).all (·.isExpired now)

/-- Forget what is expired and not in use; the number of forgotten entries. -/
def sweep (s : Flights κ ε ν) (now : Nat) : Nat × Flights κ ε ν :=
  let kept := s.index.filter fun (_, entry) => !s.isIdle now entry
  (s.index.length - kept.length, { s with index := kept })

/-- What a call meets that finds nobody else in flight. -/
inductive Reception (ε ν : Type) where
  | cancelled
  | answered (answer : Except ε ν)
  /-- It has to load, and to `settle` the answer afterwards. -/
  | load

/-- A call arrives whose caller may have stopped waiting. Where nothing is kept, every call
loads. -/
def receive (s : Flights κ ε ν) (id : Nat) (key : κ) (cancelled : Bool) (now : Nat) :
    Reception ε ν × Flights κ ε ν :=
  if !s.lifetimes.isEnabled then (.load, s)
  else
    let s := s.arrive id key now
    if cancelled then (.cancelled, s.leave id)
    else
      match s.consult id now with
      | (some answer, s) => (.answered answer, s)
      | (none, s) => (.load, s)

/-- A call that had to load ends, with what it loaded if it came to that. -/
def settle (s : Flights κ ε ν) (id : Nat) (answer : Option (Except ε ν)) (now : Nat) :
    Flights κ ε ν :=
  match answer with
  | some answer => s.store id answer now
  | none => s.leave id

end Flights

end ManifestRelay.Cache
