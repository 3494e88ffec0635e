import SecretMount.Table
import SecretMount.Text.Quoted
import SecretMount.VersionName

/-!
# Routing tables

* `RoutingTable` : one handle for secrets without a location and one for each location;
* `RoutingTable.register` : gives a location its handle, in place of an earlier one;
* `RoutingTable.route` : the handle that serves a name. A location without a handle has none:
  secrets are never read outside of their location.
-/

namespace SecretMount

structure RoutingTable (H : Type) where
  general : H
  regional : Table H

namespace RoutingTable

variable {H : Type}

/-- A table without locations. -/
def ofGeneral (h : H) : RoutingTable H := ⟨h, .empty⟩

def register (t : RoutingTable H) (location : String) (h : H) : RoutingTable H :=
  { t with regional := t.regional.put location h }

def hasLocation (t : RoutingTable H) (location : String) : Bool := t.regional.contains location

/-- The locations in order. -/
def locations (t : RoutingTable H) : List String := t.regional.keys

/-- The handle that serves `name`, or else its location. -/
def route (t : RoutingTable H) (name : VersionName) : Except String H :=
  match name.location with
  | none => .ok t.general
  | some l => (t.regional.get? l).elim (.error l) .ok

/-- The table with `f h` in place of each handle `h`. -/
def map {K : Type} (f : H → K) (t : RoutingTable H) : RoutingTable K :=
  ⟨f t.general, t.regional.map f⟩

/-- What a program may print of a table, given the endpoints of its handles. -/
def summary (t : RoutingTable H) (endpoint : H → String) : String :=
  s!"ClientSet \x7b global: {Text.quoted (endpoint t.general)}, " ++
    s!"regional: {Text.quotedList t.locations} \x7d"

end RoutingTable

end SecretMount
