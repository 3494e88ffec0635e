import SecretMount.Log.Filter
import SecretMount.Settings.Environment
import SecretMount.Text.Quoted

/-!
# What a program logs when it starts

* `Log.filterOf` : the filter that environment and settings make;
* `Log.setUp` : the events of setting up the log of a process that already has one;
* `Log.announce` : the event that tells the settings.
-/

namespace SecretMount.Log

/-- The filter of a program with these settings. -/
def filterOf (env : Environment) (s : LogSettings) : Except Refusal Filter :=
  Filter.choose (env.text? "RUST_LOG") s.logLevel

/-- The events of setting up the log, which fails only for want of a filter. -/
def setUp (env : Environment) (s : LogSettings) : Except Refusal (List Event) := do
  let _ ← filterOf env s
  return [
    .free .debug "Global subscriber already installed" [],
    .free .info "Observability initialized successfully"
      [("service_name", s.serviceName), ("log_level", s.logLevel),
        ("json_logging", Payload.boolText s.jsonLogging)]]

/-- The event that tells the settings. -/
def announce (s : Settings) : Event :=
  .free .info "Secret Manager provider configuration"
    [("service_name", s.logging.serviceName), ("version", programVersion),
      ("regions", Text.quotedList s.fetch.regions),
      ("max_concurrent_fetches", toString s.fetch.maxConcurrentFetches),
      ("fetch_timeout_seconds", toString s.fetch.fetchTimeoutSeconds),
      ("json_logging", Payload.boolText s.logging.jsonLogging)]

end SecretMount.Log
