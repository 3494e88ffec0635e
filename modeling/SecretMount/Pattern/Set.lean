import SecretMount.Pattern.Escape

/-!
# Sets of characters in patterns

A set between brackets holds characters, ranges, classes and other sets. Two sets can be
intersected, subtracted, or compared for what is in one of them only.

* `Pattern.afterClass?` : what follows a class such as `[:alpha:]`;
* `Pattern.readSet` : reads a set, of which the opening bracket is already passed, and tells how
  deep it is nested.
-/

namespace SecretMount.Pattern

/-! ## Classes -/

def classNames : List String :=
  ["alnum", "alpha", "ascii", "blank", "cntrl", "digit", "graph", "lower", "print", "punct",
    "space", "upper", "word", "xdigit"]

/-- Whether the class at the start of `cs` is negated, and what follows it. -/
def afterClass? (cs : List Char) : Option (Bool × List Char) :=
  match cs with
  | '[' :: ':' :: r =>
    let (negated, r) := match r with
      | '^' :: r => (true, r)
      | r => (false, r)
    let name := r.takeWhile (· != ':')
    match r.drop name.length with
    | ':' :: ']' :: r =>
      if classNames.contains (String.ofList name) then some (negated, r) else none
    | _ => none
  | _ => none

/-! ## Ranges -/

/-- Refuses what no set holds: places between characters and, where bytes are matched, characters
beyond ASCII. -/
def requireMember : Atom → Reading Unit
  | .literal c => do
    require ((← get).unicode || c.toNat < 0x80)
  | .category => return
  | .edge => failure

def readMember : Reading Atom := do
  let c ← next
  let a ← if c = '\\' then readEscape else pure (.literal c)
  requireMember a
  return a

/-- Whether a hyphen in front of `cs` is a hyphen and not part of a range: it is at the end of a set
and in front of another hyphen. Blanks before and behind the first number sign do not count. -/
def isHyphen (spaced : Bool) (cs : List Char) : Bool :=
  let cs :=
    if spaced then
      match cs.dropWhile Text.isBlank with
      | '#' :: r => r.dropWhile Text.isBlank
      | r => r
    else cs
  cs.head? == some ']' || cs.head? == some '-'

/-- Reads a member of a set, or a range from one character to another. -/
def readRange : Reading Unit := do
  let first ← readMember
  skipSpace
  let s ← get
  match s.rest with
  | '-' :: r =>
    if isHyphen s.spaced r then return
    else
      let _ ← next
      skipSpace
      match first, ← readMember with
      | .literal a, .literal b => require (a ≤ b)
      | _, _ => failure
  | _ => return

/-! ## Sets -/

/-- Reads hyphens, and tells how many there are. -/
def readHyphens : Nat → Reading Nat
  | 0 => return 0
  | fuel + 1 => do
    if ← take '-' then
      skipSpace
      return (← readHyphens fuel) + 1
    else return 0

/-- Reads what stands for itself only at the start of a set: hyphens, or else a closing bracket. -/
def readFirst : Reading (List Nat) := do
  skipSpace
  if ← take '^' then
    requireUnicode
    skipSpace
  let hyphens ← readHyphens ((← get).rest.length)
  if hyphens = 0 then
    if ← take ']' then
      skipSpace
      return [0]
    else return []
  else return List.replicate hyphens 0

/-- The depth of what an operator, or nothing, stands in front of. -/
def operand (left : Option Nat) (items : List Nat) : Nat :=
  match left with
  | none => joined items
  | some d => 1 + max d (joined items)

/-- Reads items and operators up to the closing bracket. The depths of the items since the last
operator are `items`, and `left` is the depth of what stands before it. -/
def readItems : Nat → Option Nat → List Nat → Reading Nat
  | 0, _, _ => failure
  | fuel + 1, left, items => do
    skipSpace
    let s ← get
    match s.rest with
    | ']' :: _ =>
      let _ ← next
      return operand left items + 1
    | '&' :: '&' :: r | '-' :: '-' :: r | '~' :: '~' :: r =>
      set { s with rest := r }
      readItems fuel (some (operand left items)) []
    | '[' :: _ =>
      match afterClass? s.rest with
      | some (negated, r) =>
        require (s.unicode || !negated)
        set { s with rest := r }
        readItems fuel left (0 :: items)
      | none =>
        let _ ← next
        let d ← readItems fuel none (← readFirst)
        readItems fuel left (d :: items)
    | _ =>
      readRange
      readItems fuel left (0 :: items)

def readSet : Reading Nat := do
  let items ← readFirst
  readItems ((← get).rest.length + 1) none items

end SecretMount.Pattern
