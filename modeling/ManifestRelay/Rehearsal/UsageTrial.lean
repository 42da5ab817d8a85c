import ManifestRelay.Relay.Note
import ManifestRelay.Usage.Reporter

/-!
# Rehearsing usage reports

A scripted sink accepts or refuses reports, each after the same time.  Reports
are due once a period; those that fall due while one is under way follow it at
once.  A report under way ends even if reporting is stopped meanwhile.
-/

namespace ManifestRelay.Rehearsal.UsageTrial

open Metadata Relay Usage

structure Delivery where
  time : Nat
  amounts : Amounts
  accepted : Bool

/-- Report once to a sink with a known answer. -/
def reportOnce (counters : Counters) (time : Nat) (answer : Except MetadataError Unit) :
    Except MetadataError Unit × List Delivery × Counters :=
  match Reporter.begin ⟨counters, none⟩ with
  | (none, _) => (.ok (), [], counters)
  | (some amounts, reporter) =>
      let accepted := answer.toBool
      (answer, [⟨time, amounts, accepted⟩], (reporter.finish accepted).counters)

/-! ## One step at a time -/

inductive Step where
  | register (name : String)
  | increment (name : String) (amount : Nat)
  | snapshot
  | subtractSnapshot (index : Nat)
  | subtract (amounts : Amounts)
  | report (answer : Except MetadataError Unit)

inductive Shown where
  | nothing
  | duplicate (name : String)
  | unregistered
  | index (index : Nat)
  | reported (result : Except MetadataError Unit) (deliveries : List Delivery)

structure Script where
  counters : Counters
  snapshots : List Amounts

def Script.initial : Script := ⟨.empty, []⟩

def Script.perform (s : Script) : Step → Shown × Script
  | .register name =>
      match s.counters.register name with
      | some counters => (.nothing, { s with counters })
      | none => (.duplicate name, s)
  | .increment name amount =>
      if s.counters.isRegistered name then
        (.nothing, { s with counters := s.counters.increment name amount })
      else (.unregistered, s)
  | .snapshot =>
      (.index s.snapshots.length, { s with snapshots := s.snapshots ++ [s.counters.snapshot] })
  | .subtractSnapshot index =>
      (.nothing, { s with counters := s.counters.subtract (s.snapshots[index]?.getD []) })
  | .subtract amounts => (.nothing, { s with counters := s.counters.subtract amounts })
  | .report answer =>
      let (result, deliveries, counters) := reportOnce s.counters 0 answer
      (.reported result deliveries, { s with counters })

/-! ## Reporting over time -/

structure Count where
  time : Nat
  name : String
  amount : Nat

structure Run where
  now : Nat
  reporter : Reporter
  counts : List Count
  answers : List (Except MetadataError Unit)
  /-- Reports, latest first. -/
  deliveries : List Delivery
  /-- Captured failures with their instants, latest first. -/
  captured : List (Nat × Note)

namespace Run

/-- Let time go on to an instant, counting what is to be counted by then. -/
def advance (r : Run) (time : Nat) : Run :=
  { r with
    now := time
    reporter := (r.counts.filter (·.time ≤ time)).foldl
      (fun reporter c => reporter.increment c.name c.amount) r.reporter
    counts := r.counts.filter (time < ·.time) }

def failureText : String := "Failed to send usage data"

def report (r : Run) (delay : Nat) : Run :=
  match r.reporter.begin with
  | (none, _) => r
  | (some amounts, reporter) =>
      let answer := r.answers.headD (.ok ())
      let r := advance { r with
        reporter
        answers := r.answers.tail
        deliveries := ⟨r.now, amounts, answer.toBool⟩ :: r.deliveries } (r.now + delay)
      let r := { r with reporter := r.reporter.finish answer.toBool }
      match answer with
      | .ok () => r
      | .error e =>
          let notes := (metadataFailure failureText e).filter (· matches .captured ..)
          { r with captured := notes.map (r.now, ·) ++ r.captured }

/-- Report once a period until reporting is stopped, at most `fuel` times;
`due` is when the next report is due. -/
def continueUntil (period delay stop : Nat) : Nat → Nat → Run → Run
  | 0, _, r => r
  | fuel + 1, due, r =>
      if stop ≤ max r.now due then r.advance (max r.now stop)
      else continueUntil period delay stop fuel (due + period) ((r.advance (max r.now due)).report delay)

def registerAll (counts : List Count) : Counters :=
  counts.foldl (fun c count => (c.register count.name).getD c) .empty

def start (period delay stop : Nat) (counts : List Count)
    (answers : List (Except MetadataError Unit)) : Run :=
  let run := advance ⟨0, ⟨registerAll counts, none⟩, counts, answers, [], []⟩ 0
  if period = 0 then run else run.continueUntil period delay stop (stop / period + 1) period

end Run

end ManifestRelay.Rehearsal.UsageTrial
