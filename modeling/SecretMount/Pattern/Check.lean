import SecretMount.Pattern.Set

/-!
# Patterns that can be matched

* `Pattern.readFlags`, `Pattern.readName` : what may stand behind the opening parenthesis of a
  group;
* `Pattern.readBranches` : reads branches with bars between them, and tells how deep they are
  nested;
* `Pattern.isValid` : whether a text is a pattern.
-/

namespace SecretMount.Pattern

/-! ## Groups -/

/-- Whether `flags` are different flags of which those behind a hyphen are turned off. -/
def areFlags (flags : List Char) : Bool :=
  flags.all "imsUuRx-".toList.contains && flags.eraseDups.length == flags.length &&
    flags.getLast? != some '-'

/-- What `flags` say about `c`, or else `before`. -/
def flag (flags : List Char) (c : Char) (before : Bool) : Bool :=
  if (flags.takeWhile (· != '-')).contains c then true
  else before && !flags.contains c

/-- Reads flags up to a colon in front of what they hold for, or up to a parenthesis when that is
all that follows in the group around. Tells whether it was the colon. -/
def readFlags : Reading Bool := do
  let flags := (← get).rest.takeWhile fun c => c != ':' && c != ')'
  modify fun s =>
    { s with
      rest := s.rest.drop flags.length
      spaced := flag flags 'x' s.spaced
      unicode := flag flags 'u' s.unicode }
  let last ← next
  require (areFlags flags && (last = ':' || !flags.isEmpty))
  return last = ':'

/-- Whether `name` may be the name of a group. -/
def isName (name : List Char) : Bool :=
  match name with
  | [] => false
  | c :: r =>
    (c == '_' || Text.isAlphabetic c) &&
      r.all fun c => "_.[]".toList.contains c || Text.isAlphanumeric c

/-- Reads the name of a group up to the closing angle. No two groups have one name. -/
def readName : Reading Unit := do
  let s ← get
  let name := s.rest.takeWhile (· != '>')
  require (isName name && !s.names.contains name)
  set { s with rest := s.rest.drop name.length, names := name :: s.names }
  let _ ← next

/-- Reads the start of a group. Tells whether a group follows, and not only flags were told. -/
def readHead : Reading Bool := do
  skipSpace
  let s ← get
  match s.rest with
  | '?' :: 'P' :: '<' :: r | '?' :: '<' :: r =>
    set { s with rest := r }
    readName
    return true
  | '?' :: r =>
    set { s with rest := r }
    readFlags
  | _ => return true

/-! ## Pieces -/

structure Piece where
  depth : Nat
  /-- Flags are a piece that cannot be repeated. -/
  repeatable : Bool
deriving DecidableEq, Repr

/-- What is neither a group nor a set. There is no repetition by numbers, for its closing brace is
missing. -/
def readLeaf (c : Char) : Reading Piece := do
  require (c != '\x7b')
  if c = '.' then requireUnicode
  if c = '\\' then
    let _ ← readEscape
  return ⟨0, true⟩

/-- The pieces with the first of them repeated. -/
def repeated : List Piece → Reading (List Piece)
  | ⟨d, true⟩ :: r => return ⟨d + 1, true⟩ :: r
  | _ => failure

mutual

/-- Reads pieces up to the end of the branch, in front of `pieces`, the last of which come first. -/
def readPieces : Nat → List Piece → Reading (List Piece)
  | 0, _ => failure
  | fuel + 1, pieces => do
    skipSpace
    match (← get).rest with
    | [] | ')' :: _ | '|' :: _ => return pieces
    | _ =>
      let c ← next
      if c = '?' ∨ c = '*' ∨ c = '+' then
        let pieces ← repeated pieces
        let _ ← take '?'
        readPieces fuel pieces
      else
        let p ←
          if c = '(' then readGroup fuel
          else if c = '[' then do
            let d ← readSet
            pure ⟨d, true⟩
          else readLeaf c
        readPieces fuel (p :: pieces)

/-- Reads branches up to the end of the group. -/
def readBranches : Nat → Reading (List Nat)
  | 0 => failure
  | fuel + 1 => do
    let pieces ← readPieces fuel []
    let d := joined (pieces.map Piece.depth)
    if ← take '|' then
      let ds ← readBranches fuel
      return d :: ds
    else return [d]

/-- Reads a group, of which the opening parenthesis is already passed. Flags hold up to its end. -/
def readGroup : Nat → Reading Piece
  | 0 => failure
  | fuel + 1 => do
    let around ← get
    if ← readHead then
      let ds ← readBranches fuel
      require (← take ')')
      modify fun s => { s with spaced := around.spaced, unicode := around.unicode }
      return ⟨joined ds + 1, true⟩
    else return ⟨0, false⟩

end

/-- Whether `s`, which has no closing brace, is a pattern. -/
def isValid (s : String) : Bool :=
  let cs := s.toList
  match (readBranches (3 * cs.length + 3)).run (.start cs) with
  | some (ds, r) => r.rest.isEmpty && joined ds ≤ maxDepth
  | none => false

end SecretMount.Pattern
