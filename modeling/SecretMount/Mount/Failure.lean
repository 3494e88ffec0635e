import SecretMount.Backend.Status
import SecretMount.Duration
import SecretMount.Payload
import SecretMount.VersionName

/-!
# Failures of mounts

* `Mount.Cause` : why one secret could not be mounted;
* `Mount.EntryFailure` : a cause with the entry that it concerns;
* `Mount.Failure` : all that went wrong in one request. `Failure.ofList?` puts failures in the order
  of their entries, whatever order they came in;
* `Failure.redacted` : a failure without what quotes a payload.
-/

namespace SecretMount.Mount

inductive Cause where
  | name (fault : VersionName.Fault)
  | noDestination
  | unrouted (location : String)
  | backend (failure : Backend.Failure)
  /-- The backend did not tell which version it served. -/
  | unresolved (served : String)
  | payload (fault : Payload.Fault)
  | cancelled
  | timeout (limit : Nat)
deriving DecidableEq, Repr

namespace Cause

def message : Cause → String
  | name fault => fault.message
  | noDestination => "no destination file name or path"
  | unrouted location => s!"no Secret Manager client configured for location \"{location}\""
  | backend failure => "failed to access secret version: " ++ failure.text
  | unresolved served => s!"backend returned unresolved version \"{served}\""
  | payload fault => fault.message
  | cancelled => "fetch cancelled before completion"
  | timeout limit => "fetch timed out after " ++ Duration.text limit

/-- The word for a cause in logs. -/
def kind : Cause → String
  | name fault => if fault.isLocation then "invalid_location" else "invalid_resource_name"
  | noDestination => "missing_destination"
  | unrouted _ => "unconfigured_location"
  | backend _ => "backend"
  | unresolved _ => "unresolved_version"
  | payload _ => "transform"
  | cancelled => "cancelled"
  | timeout _ => "timeout"

/-- The status of the backend, if the backend is the cause. -/
def status? : Cause → Option Backend.Status
  | backend failure => some failure.status
  | _ => none

def redacted : Cause → Cause
  | payload fault => payload fault.redacted
  | c => c

end Cause

structure EntryFailure where
  /-- The place of the entry in its request. -/
  index : Nat
  resourceName : String
  cause : Cause
deriving DecidableEq, Repr

def EntryFailure.text (f : EntryFailure) : String :=
  s!"secrets[{f.index}] \"{f.resourceName}\": {f.cause.message}"

structure Failure where
  failures : List EntryFailure
  /-- The number of entries, failed or not. -/
  total : Nat
deriving DecidableEq, Repr

namespace Failure

/-- `f` behind the failures of entries up to its own. -/
def insert (f : EntryFailure) : List EntryFailure → List EntryFailure
  | [] => [f]
  | g :: r => if f.index < g.index then f :: g :: r else g :: insert f r

/-- Failures in the order of their entries; those of one entry stay in the order they have. -/
def sort (l : List EntryFailure) : List EntryFailure := l.foldl (fun sorted f => insert f sorted) []

/-- The failure of a request, if any entry failed. -/
def ofList? (failures : List EntryFailure) (total : Nat) : Option Failure :=
  if failures.isEmpty then none else some ⟨sort failures, total⟩

def size (f : Failure) : Nat := f.failures.length

def redacted (f : Failure) : Failure :=
  { f with failures := f.failures.map fun e => { e with cause := e.cause.redacted } }

def message (f : Failure) : String :=
  s!"failed to resolve {f.size} of {f.total} secrets: " ++
    String.intercalate "; " (f.failures.map EntryFailure.text)

end Failure

end SecretMount.Mount
