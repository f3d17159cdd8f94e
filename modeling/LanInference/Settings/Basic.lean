/-
# Settings

What a user may set, in a file or in the environment. A file counts as a whole: with any error, a
setting that is not known or a value of the wrong type, it sets nothing. The environment goes
before the file, and the file before the defaults.

Key definitions: `Settings`, `Environment`, `Settings.defaults`, `Settings.ofText?`,
`Settings.applyEnvironment`, `Settings.load`.
-/
import LanInference.Settings.Toml
import LanInference.Text.Utf8

namespace LanInference

/-- The variables that are set. -/
abbrev Environment := String → Option String

structure Settings where
  /-- The service type that is browsed for. -/
  serviceType : String
  /-- The shortest poll interval, in seconds. -/
  minPollSeconds : UInt64
  /-- How often the power state is read again, in seconds. -/
  powerCheckSeconds : UInt64
  /-- Where partial responses are kept. -/
  recoveryDir : String
  openAiBaseUrl : String
  openRouterBaseUrl : String
  logFilter : String
  deriving Repr, DecidableEq

/-- A path below a directory. -/
def joinPath (dir path : String) : String :=
  if dir.isEmpty ∨ dir.toList.getLast? = some '/' then dir ++ path else dir ++ "/" ++ path

namespace Settings

def defaultRecoveryDir (env : Environment) : String :=
  match env "XDG_STATE_HOME", env "HOME" with
  | some state, _ => joinPath state "lanlink/recovery"
  | none, some home => joinPath home ".local/state/lanlink/recovery"
  | none, none => "/var/lib/lanlink/recovery"

def defaults (env : Environment) : Settings where
  serviceType := "_http._tcp.local"
  minPollSeconds := 30
  powerCheckSeconds := 5
  recoveryDir := defaultRecoveryDir env
  openAiBaseUrl := "https://api.openai.com/v1"
  openRouterBaseUrl := "https://openrouter.ai/api/v1"
  logFilter := "info"

/-- Poll intervals are at least a second; this one is in milliseconds. -/
def minPollInterval (s : Settings) : Nat := max s.minPollSeconds.toNat 1 * 1000

/-- The time between two readings of the power state, in milliseconds. -/
def powerCheckInterval (s : Settings) : Nat := max s.powerCheckSeconds.toNat 1 * 1000

/-- The settings with one of them set, if the name is known and the value of its type. -/
def set? (s : Settings) (name : String) (value : Toml.Scalar) : Option Settings :=
  match name, value with
  | "service_type", .string v => some { s with serviceType := v }
  | "min_poll_interval_secs", .integer i => (seconds? i).map ({ s with minPollSeconds := · })
  | "power_check_secs", .integer i => (seconds? i).map ({ s with powerCheckSeconds := · })
  | "recovery_dir", .string v => some { s with recoveryDir := v }
  | "openai_base_url", .string v => some { s with openAiBaseUrl := v }
  | "openrouter_base_url", .string v => some { s with openRouterBaseUrl := v }
  | "log_filter", .string v => some { s with logFilter := v }
  | _, _ => none
where
  seconds? (i : Int) : Option UInt64 := if 0 ≤ i then some (UInt64.ofNat i.toNat) else none

/-- Settings one after the other, none of them twice. -/
def setAll? (s : Settings) (seen : List String) : List (String × Toml.Scalar) → Option Settings
  | [] => some s
  | (name, value) :: rest =>
    if seen.contains name then none
    else
      match s.set? name value with
      | some s => s.setAll? (name :: seen) rest
      | none => none

/-- The settings of a file's text. -/
def ofText? (env : Environment) (text : List Char) : Option Settings :=
  (Toml.assignments? text).bind ((defaults env).setAll? [])

/-- A variable that is set and not empty. -/
def nonEmpty? (env : Environment) (name : String) : Option String := (env name).filter (· ≠ "")

/-- The settings with those that the environment gives. -/
def applyEnvironment (env : Environment) (s : Settings) : Settings :=
  { s with
    serviceType := (nonEmpty? env "LANLINK_SERVICE_TYPE").getD s.serviceType
    minPollSeconds := (((env "LANLINK_MIN_POLL_SECS").bind fun v =>
      Text.natural? UInt64.size v.toList).map UInt64.ofNat).getD s.minPollSeconds
    recoveryDir := (nonEmpty? env "LANLINK_RECOVERY_DIR").getD s.recoveryDir
    logFilter := (nonEmpty? env "LANLINK_LOG").getD s.logFilter }

/-- A settings file as it is found: its bytes, or something that cannot be read. -/
inductive File where
  | bytes (bs : List UInt8)
  | unreadable
  deriving Repr, DecidableEq

/-- The settings of a file that can be read and has no error. -/
def ofFile? (env : Environment) : File → Option Settings
  | .bytes bs => (Utf8.decode? bs).bind (ofText? env)
  | .unreadable => none

/-- The files that are looked for, in order; the first that exists counts. -/
def paths (env : Environment) : List String :=
  ((env "HOME").map (joinPath · ".config/lanlink/config.toml")).toList ++
    ["/etc/lanlink/config.toml"]

/-- The settings in force, given the file that was found, if any. -/
def load (env : Environment) (file : Option File) : Settings :=
  applyEnvironment env ((file.bind (ofFile? env)).getD (defaults env))

end Settings
end LanInference
