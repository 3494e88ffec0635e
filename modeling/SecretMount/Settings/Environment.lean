import SecretMount.Settings.Basic
import SecretMount.Text.Blank

/-!
# Settings from the environment

* `Environment` : the variables of a process, whose values are bytes;
* `Environment.text?` : the value of a variable, if it is set and is text;
* `FetchSettings.ofEnvironment`, `LogSettings.ofEnvironment`, `Settings.ofEnvironment` : the
  settings that the variables make;
* `parseRegions` : the different regions in a list with commas.
-/

namespace SecretMount

structure Environment where
  values : Table Bytes

namespace Environment

/-- The value of a variable. One that is no text counts as not set. -/
def text? (env : Environment) (name : String) : Option String :=
  (env.values.get? name).bind Text.decode?

end Environment

/-- `l` with each text only where it stands first. -/
def distinct (l : List String) : List String :=
  l.foldl (fun seen s => if seen.contains s then seen else seen ++ [s]) []

/-- The regions between the commas of `s`, without the blanks around them. -/
def parseRegions (s : String) : List String :=
  distinct (((Text.split ',' s).map Text.trim).filter (!·.isEmpty))

/-- A variable that holds no number where it should. -/
structure NumberFault where
  variableName : String
  fault : Numeral.Fault
deriving DecidableEq, Repr

def NumberFault.refusal (f : NumberFault) : Refusal :=
  .config s!"Invalid {f.variableName}: {f.fault.message}"

namespace Environment

/-- The number in a variable, or `default` if it is not set. -/
def number (env : Environment) (name : String) (default : Nat) : Except NumberFault Nat :=
  match env.text? name with
  | none => .ok default
  | some s => (Numeral.read Numeral.max64 (Text.trim s)).mapError fun fault => ⟨name, fault⟩

end Environment

def FetchSettings.ofEnvironment (env : Environment) : Except NumberFault FetchSettings := do
  let regions := ((env.text? "GCP_PROVIDER_REGIONS").map parseRegions).getD []
  let maxConcurrentFetches ←
    env.number "GCP_PROVIDER_MAX_CONCURRENT_FETCHES" standard.maxConcurrentFetches
  let fetchTimeoutSeconds ←
    env.number "GCP_PROVIDER_FETCH_TIMEOUT_SECONDS" standard.fetchTimeoutSeconds
  return { regions, maxConcurrentFetches, fetchTimeoutSeconds }

/-- Whether a text turns something on. -/
def isOn (s : String) : Bool := s.toLower == "true" || s == "1"

def LogSettings.ofEnvironment (env : Environment) : LogSettings where
  serviceName := (env.text? "GCP_PROVIDER_SERVICE_NAME").getD standard.serviceName
  logLevel := (env.text? "GCP_PROVIDER_LOG_LEVEL").getD standard.logLevel
  jsonLogging := ((env.text? "GCP_PROVIDER_JSON_LOGGING").map isOn).getD standard.jsonLogging

/-- The settings in the environment, if they are allowed. -/
def Settings.ofEnvironment (env : Environment) : Except Refusal Settings := do
  let fetch ← (FetchSettings.ofEnvironment env).mapError NumberFault.refusal
  let settings : Settings := ⟨fetch, LogSettings.ofEnvironment env⟩
  settings.validate
  return settings

end SecretMount
