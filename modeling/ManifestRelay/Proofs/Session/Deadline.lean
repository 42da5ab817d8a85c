import Mathlib
import ManifestRelay.Proofs.Rehearsal.World
import ManifestRelay.Proofs.Session.Interruption
import ManifestRelay.Session.ConfigurationStream

/-!
# The age of connections

Streams of configurations and of manifests end at the instant at which they are
cancelled or the age of their connection is reached.  A stream of configurations
counts that age from its first instant.  A stream of manifests counts it from the
end of its opening, and while it opens it waits for the answer of the metadata
service whatever happens.
-/

namespace ManifestRelay.Session

open Metadata Relay Rehearsal Turn
open ManifestRelay.Stream
open ManifestRelay.Wire (ConfigurationResponse)

/-- Once opened, streams end at the stop, unless they have failed before. -/
theorem streams_end_on_time {σ τ : Type} {configurations : Host σ ConfigurationResponse}
    {manifests : Host τ Frame} {clock : σ → Reading} {watch : τ → Reading}
    (configurationsKeep : configurations.KeepsTime clock)
    (manifestsKeep : manifests.KeepsTime watch) :
    (∀ settings token commit fuel s result t cursor,
      (ConfigurationStream.plan settings token commit).run configurations fuel s =
        (result, t, cursor) →
      EndsOnTime settings.maxConnectionAge settings.configurationPollPeriod fuel (clock s) result
        (clock t)) ∧
    ∀ settings token projectId globs commit fuel s distinct u result t cursor,
      (ManifestStream.opening settings token globs).run.run manifests.toSurroundings s =
        (some (.ok distinct), u) →
      (ManifestStream.plan settings token projectId globs commit).run manifests fuel s =
        (result, t, cursor) →
      EndsOnTime settings.maxConnectionAge settings.manifestPollPeriod fuel (watch u) result
        (watch t) := by
  constructor
  · intro settings token commit fuel s result t cursor run
    have hopening : (ConfigurationStream.plan settings token commit).opening.run.run
        configurations.toSurroundings s = (some (.ok ()), s) := rfl
    exact Plan.run_endsOnTime configurationsKeep hopening run
  · intro settings token projectId globs commit fuel s distinct u result t cursor opening run
    exact Plan.run_endsOnTime manifestsKeep opening run

/-- A world in which the metadata service is down and slow to tell so, and in which the stream is
cancelled meanwhile. -/
def slowAgents (φ : Type) : World φ :=
  slowWorld φ [(0, .agent (.error (.unexpected none "down"))), (1000, .cancel)] 10000 0

def cancelledLookup : Option (Except Status Unit) × World ConfigurationResponse × String :=
  (ConfigurationStream.plan briefSettings ⟨"agent-token"⟩ "").run World.host 4
    (slowAgents ConfigurationResponse)

def openedWalk : Option (Except Status (List String)) × World Frame :=
  (ManifestStream.opening briefSettings ⟨"agent-token"⟩ ["*.yaml"]).run.run
    World.host.toSurroundings ManifestStream.slowWalks.begin

def agedWalk : Option (Except Status Unit) × World Frame × String :=
  (ManifestStream.plan briefSettings ⟨"agent-token"⟩ "group/manifests" ["*.yaml"] "").run
    World.host 4 ManifestStream.slowWalks.begin

/-- The one stream ends when it is cancelled, the other when its connection is old enough. -/
theorem streams_end_on_time_interrupted :
    cancelledLookup.1 = some (.ok ()) ∧ cancelledLookup.2.1.now = 1000 ∧
      EndsOnTime 50000 20000 4 (slowAgents ConfigurationResponse).clock cancelledLookup.1
        cancelledLookup.2.1.clock ∧
      agedWalk.1 = some (.ok ()) ∧ agedWalk.2.1.now = 50000 ∧
      EndsOnTime 50000 20000 4 openedWalk.2.clock agedWalk.1 agedWalk.2.1.clock := by
  obtain ⟨hconfigurations, hmanifests⟩ :=
    streams_end_on_time (@World.host_keepsTime ConfigurationResponse) (@World.host_keepsTime Frame)
  have hopening : openedWalk = (some (.ok ["*.yaml"]), openedWalk.2) := Prod.ext (by cbv) rfl
  refine ⟨by cbv, by cbv, ?_, by cbv, by cbv, ?_⟩
  · exact hconfigurations briefSettings ⟨"agent-token"⟩ "" 4 _ _ _ _ rfl
  · exact hmanifests briefSettings ⟨"agent-token"⟩ "group/manifests" ["*.yaml"] "" 4 _ _ _ _ _ _
      hopening rfl

/-- A stream of manifests that is cancelled while it opens goes on until the metadata service
answers, and fails then. -/
theorem opening_outlasts_cancellation :
    ((slowAgents Frame).begin.run
        (ManifestStream.plan briefSettings ⟨"agent-token"⟩ "group/manifests" [] "")).1 =
      some (.error ⟨.unavailable, "unavailable"⟩) ∧
    ((slowAgents Frame).begin.run
        (ManifestStream.plan briefSettings ⟨"agent-token"⟩ "group/manifests" [] "")).2.clock =
      ⟨10000, some 1000, none⟩ := by
  exact ⟨rfl, rfl⟩

end ManifestRelay.Session
