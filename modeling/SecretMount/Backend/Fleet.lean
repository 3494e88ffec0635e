import SecretMount.Backend.Memory
import SecretMount.Duration

/-!
# Fleets

All backends that a program has made. They are numbered in the order in which they were made, and
whatever holds the number of a backend shares it with all others that do.

* `Backend.Source` : a backend in memory, or one that always gives the same answer;
* `Fleet.add`, `Fleet.update` : makes a backend, changes the one with a number;
* `Fleet.handle` : the handle of the backend with a number;
* `Fleet.charge` : counts accesses.
-/

namespace SecretMount

namespace Backend

inductive Source where
  | memory (m : Memory)
  | fixed (endpoint : String) (answer : Answer)

namespace Source

def endpoint : Source → String
  | memory m => m.endpoint
  | fixed endpoint _ => endpoint

def handle (id : Nat) : Source → Handle
  | memory m => ⟨id, m.endpoint, fun _ => Duration.timer m.latency, m.reply⟩
  | fixed endpoint answer => ⟨id, endpoint, fun _ => 0, fun _ => ⟨answer, []⟩⟩

def memory? : Source → Option Memory
  | memory m => some m
  | fixed _ _ => none

/-- The same backend with `n` more accesses. -/
def charge (n : Nat) : Source → Source
  | memory m => memory { m with calls := m.calls + n }
  | s => s

end Source

end Backend

open Backend

structure Fleet where
  sources : List Source

namespace Fleet

def empty : Fleet := ⟨[]⟩

/-- Makes a backend and gives its number. -/
def add (f : Fleet) (s : Source) : Fleet × Nat := (⟨f.sources ++ [s]⟩, f.sources.length)

def get? (f : Fleet) (id : Nat) : Option Source := f.sources[id]?

/-- The backend in memory with this number. -/
def memory? (f : Fleet) (id : Nat) : Option Memory := (f.get? id).bind Source.memory?

/-- Puts another state of a backend in its place. -/
def update (f : Fleet) (id : Nat) (m : Memory) : Fleet := ⟨f.sources.set id (.memory m)⟩

/-- The backend where there is none. -/
def missing : Source :=
  .fixed "" (.error ⟨.unavailable, "no backend"⟩)

def handle (f : Fleet) (id : Nat) : Handle := ((f.get? id).getD missing).handle id

/-- Counts the accesses of the backends with these numbers. -/
def charge (f : Fleet) (ids : List Nat) : Fleet :=
  ⟨f.sources.mapIdx fun id s => s.charge (ids.count id)⟩

end Fleet

end SecretMount
