import SecretMount.Text.Alphanumeric
import SecretMount.Text.Blank
import SecretMount.Text.Numeral

/-!
# Patterns

A pattern is a regular expression that is matched without captures and without looking around.

* `Pattern.Reader` : how far a pattern is read, and what the flags say there;
* `Pattern.Reading` : reads part of a pattern, or refuses all of it;
* `Pattern.joined`, `Pattern.maxDepth` : how deep parts are nested that stand side by side, and how
  deep they may be.
-/

namespace SecretMount.Pattern

structure Reader where
  rest : List Char
  /-- Whether blanks and comments between the parts are passed over. -/
  spaced : Bool
  /-- Whether all characters can be matched, and not only bytes of their own. -/
  unicode : Bool
  /-- The names of the groups so far. -/
  names : List (List Char)

namespace Reader

/-- The start of the pattern `cs`. -/
def start (cs : List Char) : Reader := ⟨cs, false, true, []⟩

end Reader

abbrev Reading := StateT Reader Option

/-! ## Blanks and comments -/

/-- What follows blanks and comments, where `inComment` tells whether this is within one. They go
from a number sign to the end of the line. -/
def dropSpace (inComment : Bool) : List Char → List Char
  | [] => []
  | c :: r =>
    if inComment then dropSpace (c != '\n') r
    else if Text.isBlank c then dropSpace false r
    else if c = '#' then dropSpace true r
    else c :: r

/-- Passes over blanks and comments if they count for nothing here. -/
def skipSpace : Reading Unit :=
  modify fun s => if s.spaced then { s with rest := dropSpace false s.rest } else s

/-! ## Characters -/

/-- The next character. -/
def next : Reading Char := do
  match (← get).rest with
  | [] => failure
  | c :: r =>
    modify fun s => { s with rest := r }
    return c

/-- Passes over the next character if it is `c`, and tells whether it was. -/
def take (c : Char) : Reading Bool := do
  match (← get).rest with
  | a :: r =>
    if a = c then
      modify fun s => { s with rest := r }
      return true
    else return false
  | [] => return false

/-- Refuses the pattern unless `allowed` holds. -/
def require (allowed : Bool) : Reading Unit := if allowed then pure () else failure

/-- Refuses what only characters have where bytes are matched. -/
def requireUnicode : Reading Unit := do
  require (← get).unicode

/-! ## Nesting -/

/-- The depth of parts of the depths `ds` side by side. One part alone is not nested. -/
def joined (ds : List Nat) : Nat :=
  match ds with
  | [] => 0
  | [d] => d
  | ds => 1 + ds.foldl max 0

/-- How deep the parts of a pattern may be nested. -/
def maxDepth : Nat := 250

end SecretMount.Pattern
