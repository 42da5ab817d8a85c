import ManifestRelay.Cache.Entry
import ManifestRelay.CommandLine.Flag
import ManifestRelay.Session.Settings

/-!
# Options of the program
-/

namespace ManifestRelay.CommandLine

/-- The options that the program runs with; periods are in seconds. -/
structure Options where
  host : String
  port : Nat
  metadataAddress : String
  snapshotRoot : String
  configurationPollPeriod : Nat
  manifestPollPeriod : Nat
  agentLifetimes : Cache.Lifetimes
  projectLifetimes : Cache.Lifetimes
  maxConnectionAge : Nat
  maxConfigurationSize : Int
  budget : Turn.Budget
  maxGlobs : Nat
  usagePeriod : Nat
deriving Repr

/-- A flag whose variable has its own name in capitals. -/
def flag (name : String) (kind : Kind) (fallback : String) : Flag :=
  ⟨name, (name.replace "-" "_").toUpper, kind, some fallback⟩

def flags : List Flag :=
  [⟨"host", "GRPC_HOST", .text, some "0.0.0.0"⟩,
    ⟨"port", "GRPC_PORT", .port, some "50061"⟩,
    flag "gitlab-url" .text "http://localhost:8080",
    ⟨"snapshot-root", "SNAPSHOT_ROOT", .path, none⟩,
    flag "agent-config-poll-period-secs" .natural "20",
    flag "gitops-poll-period-secs" .natural "20",
    flag "agent-info-cache-ttl-secs" .natural "300",
    flag "agent-info-cache-error-ttl-secs" .natural "60",
    flag "project-info-cache-ttl-secs" .natural "300",
    flag "project-info-cache-error-ttl-secs" .natural "60",
    flag "max-connection-age-secs" .natural "1800",
    flag "max-configuration-file-size" .word "131072",
    flag "max-manifest-file-size" .word "1048576",
    flag "max-total-manifest-file-size" .word "2097152",
    flag "max-number-of-paths" .halfWord "100",
    flag "max-number-of-files" .halfWord "1000",
    flag "usage-reporting-period-secs" .natural "60"]

namespace Assignments

def text (values : Assignments) (name : String) : String :=
  match values.lookup name with
  | some (.text text) => text
  | _ => ""

def number (values : Assignments) (name : String) : Int :=
  match values.lookup name with
  | some (.number n) => n
  | _ => 0

end Assignments

namespace Options

def ofAssignments (values : Assignments) : Options :=
  let text := Assignments.text values
  let number := Assignments.number values
  let natural (name : String) : Nat := (number name).toNat
  { host := text "host"
    port := natural "port"
    metadataAddress := text "gitlab-url"
    snapshotRoot := text "snapshot-root"
    configurationPollPeriod := natural "agent-config-poll-period-secs"
    manifestPollPeriod := natural "gitops-poll-period-secs"
    agentLifetimes :=
      ⟨natural "agent-info-cache-ttl-secs", natural "agent-info-cache-error-ttl-secs"⟩
    projectLifetimes :=
      ⟨natural "project-info-cache-ttl-secs", natural "project-info-cache-error-ttl-secs"⟩
    maxConnectionAge := natural "max-connection-age-secs"
    maxConfigurationSize := number "max-configuration-file-size"
    budget :=
      ⟨number "max-total-manifest-file-size", number "max-manifest-file-size",
        natural "max-number-of-files"⟩
    maxGlobs := natural "max-number-of-paths"
    usagePeriod := natural "usage-reporting-period-secs" }

def read (arguments : List String) (environment : String → Option String) :
    Except UsageError Options :=
  (readFlags flags arguments environment).map ofAssignments

def settings (o : Options) : Session.Settings where
  configurationPollPeriod := o.configurationPollPeriod * 1000
  manifestPollPeriod := o.manifestPollPeriod * 1000
  maxConnectionAge := o.maxConnectionAge * 1000
  maxConfigurationSize := o.maxConfigurationSize
  maxGlobs := o.maxGlobs
  budget := o.budget

end Options

end ManifestRelay.CommandLine
