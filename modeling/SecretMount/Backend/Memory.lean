import SecretMount.Backend.Handle
import SecretMount.VersionName

/-!
# The backend in memory

* `Backend.Memory` : secrets with their versions, failures that take the place of versions, and the
  number of accesses so far;
* `Memory.addVersion`, `Memory.failWith`, `Memory.access` : what can be done with it. Versions of a
  secret are numbered from one in the order in which they are added;
* `Memory.answer` : the answer to a name, which depends on nothing but secrets and failures.
-/

namespace SecretMount.Backend

structure Memory where
  endpoint : String
  latency : Nat
  /-- The versions of each secret, by its path. -/
  secrets : Table (List Bytes)
  /-- The failures by the names that they are the answer to. -/
  failures : Table Failure
  calls : Nat

namespace Memory

/-- A backend without secrets whose accesses take the time `latency`. -/
def new (endpoint : String) (latency : Nat) : Memory := ⟨endpoint, latency, .empty, .empty, 0⟩

/-- The versions of a secret, in order. -/
def versions (m : Memory) (path : String) : List Bytes := (m.secrets.get? path).getD []

/-- Adds a version of a secret and gives its number. -/
def addVersion (m : Memory) (path : String) (data : Bytes) : Memory × Nat :=
  let versions := m.versions path ++ [data]
  ({ m with secrets := m.secrets.put path versions }, versions.length)

/-- Makes `failure` the answer to exactly this name. -/
def failWith (m : Memory) (name : String) (failure : Failure) : Memory :=
  { m with failures := m.failures.put name failure }

/-- The version that is asked for, out of those of a secret. -/
def numberOf (versions : List Bytes) : Version → Nat
  | .latest => versions.length
  | .number n => n

/-- The answer to a name that no failure is set for. -/
def lookUp (m : Memory) (name : String) : Answer :=
  match VersionName.parse name with
  | .error fault => .error ⟨.invalidArgument, fault.message⟩
  | .ok n =>
    match m.secrets.get? n.secretPath with
    | none => .error ⟨.notFound, s!"Secret [{n.secretPath}] not found or has no versions."⟩
    | some versions =>
      let number := numberOf versions n.version
      match if number = 0 then none else versions[number - 1]? with
      | none => .error ⟨.notFound, s!"Secret Version [{name}] not found."⟩
      | some data => .ok ⟨(n.withVersion (.number number)).text, data⟩

def answer (m : Memory) (name : String) : Answer :=
  match m.failures.get? name with
  | some failure => .error failure
  | none => m.lookUp name

/-- What is logged when `name` is accessed. -/
def events (m : Memory) (name : String) : List Log.Event :=
  match m.failures.get? name with
  | some failure =>
    [.free .debug "Returning programmed failure" [("name", name), ("code", failure.status.name)]]
  | none => []

def reply (m : Memory) (name : String) : Reply := ⟨m.answer name, m.events name⟩

/-- Counts an access and answers it. -/
def access (m : Memory) (name : String) : Memory × Answer :=
  ({ m with calls := m.calls + 1 }, m.answer name)

/-- What a program may print of this. -/
def summary (m : Memory) : String :=
  s!"InMemorySecretBackend \x7b endpoint: {Text.quoted m.endpoint}, secrets: {m.secrets.size}, " ++
    s!"failures: {m.failures.size} \x7d"

end Memory

end SecretMount.Backend
