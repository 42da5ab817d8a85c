import Mathlib.Data.List.Chain
import ManifestRelay.Proofs.Session.Run

/-!
# Runs as courses of ticks

A stream that opens without a word is what its ticks are.  Its run falls into
ticks, each of which starts from the cursor that the one before it has reached;
only the last one may end the stream.
-/

namespace ManifestRelay.Session

open ManifestRelay.Stream

variable {σ φ : Type}

/-- How a tick ends: with the cursor that it has reached, with the failure of its stream, or cut
short while it waits for the answer to a query. -/
inductive Tick.Ending (φ : Type) where
  | reached (cursor : String)
  | failed (status : Status)
  | cut (query : Query φ)

structure Tick (φ : Type) where
  cursor : String
  events : List (Event φ)
  ending : Tick.Ending φ

namespace Tick

/-- The cursor behind a tick; one that ends its stream leaves it as it is. -/
def next (tick : Tick φ) : String :=
  match tick.ending with
  | .reached cursor => cursor
  | .failed _ | .cut _ => tick.cursor

/-- Whether a query is put to the surroundings, be it answered or not. -/
def Asks (tick : Tick φ) (query : Query φ) : Prop :=
  (∃ answer, .answered query answer ∈ tick.events) ∨ tick.ending = .cut query

def IsOf (plan : Plan φ Unit) (tick : Tick φ) : Prop :=
  match tick.ending with
  | .reached cursor => Transcript (plan.tick () tick.cursor).run tick.events (some (.ok cursor))
  | .failed status => Transcript (plan.tick () tick.cursor).run tick.events (some (.error status))
  | .cut query => Waits query (plan.tick () tick.cursor).run tick.events

end Tick

namespace Plan

/-- Ticks follow one another from the beginning of a stream to this cursor. -/
structure Course (plan : Plan φ Unit) (ticks : List (Tick φ)) (cursor : String) : Prop where
  each : ∀ tick ∈ ticks, tick.IsOf plan
  linked : ticks.IsChain fun tick later => tick.ending = .reached later.cursor
  first : ∀ tick ∈ ticks.head?, tick.cursor = plan.cursor
  last : (ticks.getLast?.map Tick.next).getD plan.cursor = cursor

def GoesOn (ticks : List (Tick φ)) : Prop := ∀ tick ∈ ticks.getLast?, tick.ending = .reached tick.next

/-- How a stream stands or ends after ticks: it fails if the last of them has failed, and it ends
well if that was cut short. -/
structure Result (ticks : List (Tick φ)) (result : Option (Except Status Unit)) : Prop where
  failed : ∀ status, result = some (.error status) ↔ ∃ tick ∈ ticks.getLast?, tick.ending = .failed status
  cut : ∀ tick ∈ ticks.getLast?, ∀ query, tick.ending = .cut query → result = some (.ok ())

variable {plan : Plan φ Unit} {ticks : List (Tick φ)} {cursor : String}

theorem Course.nil (plan : Plan φ Unit) : plan.Course [] plan.cursor where
  each := nofun
  linked := .nil
  first := nofun
  last := rfl

theorem Course.concat (course : plan.Course ticks cursor) (goesOn : GoesOn ticks) {tick : Tick φ}
    (isOf : tick.IsOf plan) (here : tick.cursor = cursor) :
    plan.Course (ticks ++ [tick]) tick.next where
  each := by
    intro other hother
    rcases List.mem_append.1 hother with hbefore | hlast
    · exact course.each other hbefore
    · rwa [List.mem_singleton.1 hlast]
  linked := by
    refine course.linked.append (List.isChain_singleton tick) fun last hlast later hlater => ?_
    obtain rfl := Option.some.inj hlater
    have hnext := course.last
    rw [hlast, Option.map_some, Option.getD_some] at hnext
    rw [goesOn last hlast, hnext, here]
  first := by
    cases ticks with
    | nil =>
        intro other hother
        obtain rfl := Option.some.inj hother
        exact here.trans course.last.symm
    | cons head rest => exact course.first
  last := by rw [List.getLast?_concat, Option.map_some, Option.getD_some]

theorem goesOn_concat {tick : Tick φ} {next : String} (h : tick.ending = .reached next) :
    GoesOn (ticks ++ [tick]) := by
  intro last hlast
  rw [List.getLast?_concat] at hlast
  obtain rfl := Option.some.inj hlast
  rw [Tick.next, h]

theorem GoesOn.result (goesOn : GoesOn ticks) {result : Option (Except Status Unit)}
    (h : ∀ status, result ≠ some (.error status)) : Result ticks result where
  failed status := by
    refine ⟨fun hresult => absurd hresult (h status), fun ⟨tick, hlast, hending⟩ => ?_⟩
    rw [goesOn tick hlast] at hending
    cases hending
  cut tick hlast query hending := by
    rw [goesOn tick hlast] at hending
    cases hending

theorem result_failed {tick : Tick φ} {status : Status} (h : tick.ending = .failed status) :
    Result (ticks ++ [tick]) (some (.error status)) where
  failed other := by
    rw [List.getLast?_concat]
    constructor
    · intro hsame
      cases hsame
      exact ⟨tick, rfl, h⟩
    · rintro ⟨last, hlast, hending⟩
      obtain rfl := Option.some.inj hlast
      rw [h] at hending
      cases hending
      rfl
  cut last hlast query hending := by
    rw [List.getLast?_concat] at hlast
    obtain rfl := Option.some.inj hlast
    rw [h] at hending
    cases hending

theorem result_cut {tick : Tick φ} {query : Query φ} (h : tick.ending = .cut query) :
    Result (ticks ++ [tick]) (some (.ok ())) where
  failed status := by
    refine ⟨nofun, fun ⟨last, hlast, hending⟩ => ?_⟩
    rw [List.getLast?_concat] at hlast
    obtain rfl := Option.some.inj hlast
    rw [h] at hending
    cases hending
  cut _ _ _ _ := rfl

/-- A run is a course of ticks, whatever the surroundings are. -/
theorem run_course {plan : Plan φ Unit} (silent : plan.opening = pure ()) {host : Host σ φ}
    {p : Event φ → Prop} (upheld : host.Uphold p) (noted : ∀ note, p (.noted note)) {fuel : Nat}
    {s t : σ} {result : Option (Except Status Unit)} {events : List (Event φ)} {cursor : String}
    (run : plan.run host.recorded fuel (s, []) = (result, (t, events), cursor)) :
    ∃ ticks, events = ticks.flatMap Tick.events ∧ plan.Course ticks cursor ∧ Result ticks result ∧
      ∀ event ∈ events, p event := by
  have htick : ∀ opened before cursor,
      (∃ ticks, before = ticks.flatMap Tick.events ∧ plan.Course ticks cursor ∧ GoesOn ticks ∧
        ∀ event ∈ before, p event) →
      Exchange.Leads host p (plan.tick opened cursor)
        (fun next events => ∃ ticks, before ++ events = ticks.flatMap Tick.events ∧
          plan.Course ticks next ∧ GoesOn ticks ∧ ∀ event ∈ before ++ events, p event)
        fun result _ events => ∃ ticks, before ++ events = ticks.flatMap Tick.events ∧
          plan.Course ticks cursor ∧ Result ticks (some result) ∧
          ∀ event ∈ before ++ events, p event := by
    rintro ⟨⟩ before cursor ⟨ticks, rfl, hcourse, hgoesOn, hbefore⟩
    have hall : ∀ {events : List (Event φ)}, (∀ event ∈ events, p event) →
        ∀ event ∈ ticks.flatMap Tick.events ++ events, p event := by
      intro events hp event hevent
      exact (List.mem_append.1 hevent).elim (hbefore event) (hp event)
    have hevents : ∀ tick : Tick φ, ticks.flatMap Tick.events ++ tick.events =
        (ticks ++ [tick]).flatMap Tick.events := by simp
    constructor
    · intro events next hp transcript
      exact ⟨_, hevents ⟨cursor, events, .reached next⟩, hcourse.concat hgoesOn transcript rfl,
        goesOn_concat rfl, hall hp⟩
    · intro events status t hp transcript
      exact ⟨_, hevents ⟨cursor, events, .failed status⟩, hcourse.concat hgoesOn transcript rfl,
        result_failed rfl, hall hp⟩
    · intro events query u t hp waits _
      exact ⟨_, hevents ⟨cursor, events, .cut query⟩, hcourse.concat hgoesOn waits rfl,
        result_cut rfl, hall hp⟩
  have hopening : Exchange.Leads host p plan.opening
      (fun _ events => ∃ ticks, events = ticks.flatMap Tick.events ∧
        plan.Course ticks plan.cursor ∧ GoesOn ticks ∧ ∀ event ∈ events, p event)
      fun result _ events => ∃ ticks, events = ticks.flatMap Tick.events ∧
        plan.Course ticks plan.cursor ∧ Result ticks (some result) ∧ ∀ event ∈ events, p event := by
    rw [silent]
    constructor
    · intro events opened _ transcript
      cases transcript
      exact ⟨[], rfl, .nil plan, nofun, nofun⟩
    · intro events status t _ transcript
      cases transcript
    · intro events query u t _ waits _
      cases waits
  obtain ⟨hsteady, hended⟩ := run_leads
    (fun events cursor => ∃ ticks, events = ticks.flatMap Tick.events ∧ plan.Course ticks cursor ∧
      GoesOn ticks ∧ ∀ event ∈ events, p event)
    (fun result _ events cursor => ∃ ticks, events = ticks.flatMap Tick.events ∧
      plan.Course ticks cursor ∧ Result ticks (some result) ∧ ∀ event ∈ events, p event)
    upheld noted htick hopening
    (fun _ _ _ ⟨ticks, hevents, hcourse, hgoesOn, hp⟩ =>
      ⟨ticks, hevents, hcourse, hgoesOn.result (by simp), hp⟩) run
  cases result with
  | none =>
      obtain ⟨ticks, hevents, hcourse, hgoesOn, hp⟩ := hsteady rfl
      exact ⟨ticks, hevents, hcourse, hgoesOn.result nofun, hp⟩
  | some result => exact hended result rfl

end Plan

end ManifestRelay.Session
