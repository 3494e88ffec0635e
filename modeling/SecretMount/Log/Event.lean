/-!
# Log events

* `Log.Level` : how important an event is;
* `Log.Event` : a message with named fields, and perhaps the span in which it happened;
* `Log.Event.within` : the same event in a span.
-/

namespace SecretMount.Log

inductive Level where
  | error
  | warn
  | info
  | debug
  | trace
deriving DecidableEq, Repr

/-- The names and texts of fields. -/
abbrev Fields := List (String × String)

structure Span where
  name : String
  fields : Fields
deriving DecidableEq, Repr

structure Event where
  level : Level
  message : String
  fields : Fields
  span : Option Span
deriving DecidableEq, Repr

namespace Event

/-- An event outside of any span. -/
def free (level : Level) (message : String) (fields : Fields) : Event :=
  ⟨level, message, fields, none⟩

def within (span : Span) (e : Event) : Event := { e with span := some span }

end Event

end SecretMount.Log
