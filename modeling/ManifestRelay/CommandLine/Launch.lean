import ManifestRelay.CommandLine.Address
import ManifestRelay.CommandLine.LogFilter
import ManifestRelay.CommandLine.Options

/-!
# Starting and stopping the program

The program tells its options, listens at its address, and serves until it is
told to stop.  A bad command line ends it with status 2, an address that is
none with status 1.
-/

namespace ManifestRelay.CommandLine

open Relay

inductive StopRequest where
  | interrupt
  | terminate
deriving DecidableEq, Repr

structure Run where
  status : Nat
  failure : Option String
  logs : List (Level × String)
deriving DecidableEq, Repr

/-- Seconds as the log shows them. -/
def secondsText (n : Nat) : String := if n = 0 then "0ns" else s!"{n}s"

def Options.address (o : Options) : String := s!"{o.host}:{o.port}"

def greeting (o : Options) : List (Level × String) :=
  [(.info, "Starting agent-relay-server"),
    (.info, s!"  Metadata API: {o.metadataAddress}"),
    (.info, s!"  Snapshot root: {o.snapshotRoot}"),
    (.info, "  Config poll period: " ++ secondsText o.configurationPollPeriod),
    (.info, "  GitOps poll period: " ++ secondsText o.manifestPollPeriod),
    (.info, "  Max connection age: " ++ secondsText o.maxConnectionAge)] ++
    if o.usagePeriod = 0 then [(.warning, "Usage reporting is disabled")] else []

def farewell : StopRequest → List (Level × String)
  | .interrupt => [(.info, "Received Ctrl+C, initiating shutdown")]
  | .terminate => [(.info, "Received SIGTERM, initiating shutdown")]

def logTarget : String := "agent_relay_server"

def shownLines (filter : Option String) (lines : List (Level × String)) :
    List (Level × String) :=
  let threshold := thresholdFor (filterOf filter) logTarget
  lines.filter fun (level, _) => levelRank level ≤ threshold

/-- The status of a program that does not carry out its command line. -/
def UsageError.status : UsageError → Nat
  | .helpRequested => 0
  | _ => 2

/-- Run the program until somebody tells it to stop, or as far as it gets. -/
def run (arguments : List String) (environment : String → Option String)
    (stop : Option StopRequest) : Run :=
  let shown := shownLines (environment "RUST_LOG")
  match Options.read arguments environment with
  | .error e => ⟨e.status, none, []⟩
  | .ok o =>
      if isSocketAddress o.address then
        let listening := [(Level.info, s!"Listening on tcp://{o.address}")]
        let ending := match stop with
          | some request => farewell request ++ [(Level.info, "Server shutdown complete")]
          | none => []
        ⟨0, none, shown (greeting o ++ listening ++ ending)⟩
      else ⟨1, some "Error: invalid socket address syntax", shown (greeting o)⟩

end ManifestRelay.CommandLine
