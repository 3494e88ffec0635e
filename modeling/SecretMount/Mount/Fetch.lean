import SecretMount.Backend.Handle
import SecretMount.Mount.Failure

/-!
# Fetches

One access to a backend for one name, and what is made of the answer.

* `Mount.Fetched` : bytes with the version that they are, which is a number and never the alias;
* `Fetch.result` : what an answer comes to;
* `Fetch.opening`, `Fetch.closing` : what is logged when a fetch starts and when it is answered.
-/

namespace SecretMount.Mount

structure Fetched where
  /-- The name of the version that was served. -/
  version : String
  data : Bytes
deriving DecidableEq, Repr

/-- What a program may print of a fetched secret. -/
def Fetched.summary (f : Fetched) : String :=
  s!"FetchedSecret \x7b version: {Text.quoted f.version}, data: \"[REDACTED]\" \x7d"

namespace Fetch

open Backend

/-- The version in a name, if it is a number. -/
def concreteVersion? (name : String) : Option Version :=
  match VersionName.parse name with
  | .ok n => if n.version.isAlias then none else some n.version
  | .error _ => none

/-- What an answer comes to. Failures stay as they are. -/
def result : Answer → Except Cause Fetched
  | .error failure => .error (.backend failure)
  | .ok served =>
    match concreteVersion? served.name with
    | some _ => .ok ⟨served.name, served.data⟩
    | none => .error (.unresolved served.name)

/-- What is logged when the access starts. -/
def opening (name : VersionName) (endpoint : String) : Log.Event :=
  .free .debug "Accessing secret version" [("resource_name", name.text), ("endpoint", endpoint)]

/-- What is logged when the access is answered. A number that is asked for should be served. -/
def closing (name : VersionName) : Answer → List Log.Event
  | .error _ => []
  | .ok served =>
    let fields := [("resource_name", name.text), ("served", served.name)]
    match concreteVersion? served.name with
    | none => [.free .warn "Backend did not report a concrete secret version" fields]
    | some version =>
      if name.version.isAlias || name.version == version then []
      else [.free .warn "Backend served a different version than requested" fields]

end Fetch

end SecretMount.Mount
