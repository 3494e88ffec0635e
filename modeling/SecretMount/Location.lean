/-!
# Locations

* `Location.isValid` : whether a text is the id of a location, such as `us-central1`: at most thirty
  lower-case letters, digits and hyphens, with a letter at the start and no hyphen at the end.
-/

namespace SecretMount.Location

def isLetter (c : Char) : Bool := 'a' ≤ c && c ≤ 'z'

def isIdChar (c : Char) : Bool := isLetter c || c.isDigit || c == '-'

/-- The length up to which an id is accepted, in bytes. -/
def maxLength : Nat := 30

/-- Whether `cs` is an id of any length. -/
def isId (cs : List Char) : Bool :=
  match cs with
  | [] => false
  | c :: r => isLetter c && r.all isIdChar && r.getLast? != some '-'

def isValid (s : String) : Bool := s.utf8ByteSize ≤ maxLength && isId s.toList

end SecretMount.Location
