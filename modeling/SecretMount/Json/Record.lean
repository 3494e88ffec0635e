import SecretMount.Json.Parse

/-!
# Records in JSON values

* `Json.Shape.record`, `Json.fields?` : a record is an object, in which no known key repeats, or a
  list of the values of its first keys;
* `Json.optional?` : a value that may be left out or null.
-/

namespace SecretMount.Json

/-- A record with these keys, whose values are read as a whole. -/
def Shape.flat (names : List String) : Shape := .record (names.map fun k => (k, .whole))

/-- The values of the keys `names`. -/
def fields? (names : List String) : Json → Option (String → Option Json)
  | array items =>
    if items.length ≤ names.length then some fun k => (names.zip items).lookup k else none
  | object members =>
    if names.any fun k => 2 ≤ (members.map Prod.fst).count k then none
    else some fun k => members.lookup k
  | _ => none

/-- What `read` makes of a value, or nothing if that is left out or null. -/
def optional? {α : Type} (read : Json → Option α) : Option Json → Option (Option α)
  | none | some null => some none
  | some v => (read v).map some

/-- What `read` makes of each item of a list. -/
def items? {α : Type} (read : Json → Option α) : Json → Option (List α)
  | array items => items.mapM read
  | _ => none

end SecretMount.Json
