import SecretMount.Duration
import SecretMount.Json.Record
import SecretMount.Location
import SecretMount.Mount.Run
import SecretMount.Yaml.Record

/-!
# Settings

* `Settings`, in two sections: `FetchSettings` and `LogSettings`;
* `FetchSettings.violations`, `LogSettings.violations`, `Settings.validate` : the values that are
  not allowed;
* `FetchSettings.limits` : what the settings mean for a request;
* `ofJson?` and `ofYaml` of both sections and of the settings.
-/

namespace SecretMount

structure FetchSettings where
  regions : List String
  maxConcurrentFetches : Nat
  /-- The seconds that an access may take, or zero for any time. -/
  fetchTimeoutSeconds : Nat
deriving DecidableEq, Repr

structure LogSettings where
  serviceName : String
  logLevel : String
  jsonLogging : Bool
deriving DecidableEq, Repr

structure Settings where
  fetch : FetchSettings
  logging : LogSettings
deriving DecidableEq, Repr

def FetchSettings.standard : FetchSettings := ⟨[], 8, 0⟩

/-- The name of this program. -/
def programName : String := "gcp-secrets-csi-provider"

/-- The version of this program. -/
def programVersion : String := "0.1.0"

def LogSettings.standard : LogSettings := ⟨programName, "info", false⟩

def Settings.standard : Settings := ⟨.standard, .standard⟩

/-! ## Validation -/

/-- A field with what is wrong about it. -/
structure Violation where
  field : String
  message : String
deriving DecidableEq, Repr

def Violation.text (v : Violation) : String := v.field ++ ": " ++ v.message

/-- What is reported for violations. -/
def Violation.refusal (l : List Violation) : Refusal :=
  .validation ("Validation failed: " ++ String.intercalate "; " (l.map Violation.text)) none

namespace FetchSettings

/-- How long an access may take. -/
def timeout (s : FetchSettings) : Option Nat :=
  if s.fetchTimeoutSeconds = 0 then none else some (Duration.seconds s.fetchTimeoutSeconds)

def limits (s : FetchSettings) : Mount.Limits := ⟨s.maxConcurrentFetches, s.timeout⟩

/-- The values that are not allowed. They are collected in a map, which leaves their order open;
here it is that of the fields' names. -/
def violations (s : FetchSettings) : List Violation :=
  (if s.fetchTimeoutSeconds ≤ 600 then []
    else [⟨"fetch_timeout_seconds", "Fetch timeout must be at most 600 seconds"⟩]) ++
  (if 1 ≤ s.maxConcurrentFetches ∧ s.maxConcurrentFetches ≤ 256 then []
    else [⟨"max_concurrent_fetches", "Max concurrent fetches must be between 1 and 256"⟩])

def validate (s : FetchSettings) : Except Refusal Unit :=
  if s.violations.isEmpty then .ok () else .error (Violation.refusal s.violations)

end FetchSettings

namespace LogSettings

/-- The values that are not allowed, in the order that is chosen in `FetchSettings.violations`. -/
def violations (s : LogSettings) : List Violation :=
  (if s.logLevel.isEmpty then [⟨"log_level", "Log level cannot be empty"⟩] else []) ++
  (if s.serviceName.isEmpty then [⟨"service_name", "Service name cannot be empty"⟩] else [])

def validate (s : LogSettings) : Except Refusal Unit :=
  if s.violations.isEmpty then .ok () else .error (Violation.refusal s.violations)

end LogSettings

namespace Settings

/-- What is reported for the region `r`. -/
def regionRefusal (r : String) : Refusal := .validation s!"Invalid region \"{r}\"" (some "regions")

/-- Refuses settings with a violation, without telling which, and then settings with a region that
is no location. -/
def validate (s : Settings) : Except Refusal Unit :=
  if !s.fetch.violations.isEmpty || !s.logging.violations.isEmpty then
    .error (Violation.refusal [])
  else match s.fetch.regions.find? (!Location.isValid ·) with
    | some r => .error (regionRefusal r)
    | none => .ok ()

end Settings

/-! ## Documents -/

/-- The integer that a value is, if it has at most 64 bits and no minus sign. -/
def natOfJson? (j : Json) : Option Nat :=
  j.int?.bind fun i => if 0 ≤ i then some i.toNat else none

namespace FetchSettings

def keys : List String := ["regions", "max_concurrent_fetches", "fetch_timeout_seconds"]

def shape : Json.Shape := .flat keys

def ofJson? (j : Json) : Option FetchSettings := do
  let field ← j.fields? keys
  return {
    regions := ← (field "regions").bind (Json.items? Json.string?)
    maxConcurrentFetches := ← (field "max_concurrent_fetches").bind natOfJson?
    fetchTimeoutSeconds := ← (field "fetch_timeout_seconds").bind natOfJson? }

def ofYaml (d : Yaml.Document) (t : Yaml.Tree) : Yaml.Reading FetchSettings := do
  let field ← d.fields keys t
  let regions ← Yaml.Document.required d.items (field "regions")
  return {
    regions := ← regions.mapM d.text
    maxConcurrentFetches := ← Yaml.Document.required d.nat (field "max_concurrent_fetches")
    fetchTimeoutSeconds := ← Yaml.Document.required d.nat (field "fetch_timeout_seconds") }

end FetchSettings

namespace LogSettings

def keys : List String := ["service_name", "log_level", "json_logging"]

def shape : Json.Shape := .flat keys

def ofJson? (j : Json) : Option LogSettings := do
  let field ← j.fields? keys
  return {
    serviceName := ← (field "service_name").bind Json.string?
    logLevel := ← (field "log_level").bind Json.string?
    jsonLogging := ← (field "json_logging").bind Json.bool? }

def ofYaml (d : Yaml.Document) (t : Yaml.Tree) : Yaml.Reading LogSettings := do
  let field ← d.fields keys t
  return {
    serviceName := ← Yaml.Document.required d.text (field "service_name")
    logLevel := ← Yaml.Document.required d.text (field "log_level")
    jsonLogging := ← Yaml.Document.required d.bool (field "json_logging") }

end LogSettings

namespace Settings

def keys : List String := ["fetch", "observability"]

def shape : Json.Shape :=
  .record [("fetch", FetchSettings.shape), ("observability", LogSettings.shape)]

def ofJson? (j : Json) : Option Settings := do
  let field ← j.fields? keys
  return {
    fetch := ← (field "fetch").bind FetchSettings.ofJson?
    logging := ← (field "observability").bind LogSettings.ofJson? }

def ofYaml (d : Yaml.Document) (t : Yaml.Tree) : Yaml.Reading Settings := do
  let field ← d.fields keys t
  return {
    fetch := ← Yaml.Document.required (FetchSettings.ofYaml d) (field "fetch")
    logging := ← Yaml.Document.required (LogSettings.ofYaml d) (field "observability") }

/-- The settings in a JSON text. -/
def parseJson (text : String) : Except Refusal Settings :=
  match Json.parseAs shape (Text.encode text) with
  | .ok j => (ofJson? j).elim (.error (.serialization "JSON deserialization failed")) .ok
  | .error _ => .error (.serialization "JSON deserialization failed")

/-- The settings in a YAML text. -/
def parseYaml (text : String) : Except Refusal Settings :=
  (Yaml.readDocument ofYaml (Text.encode text)).mapError fun _ =>
    .serialization "YAML deserialization failed"

end Settings

end SecretMount
