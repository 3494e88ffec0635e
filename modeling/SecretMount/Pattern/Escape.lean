import SecretMount.Pattern.Basic

/-!
# Escapes of patterns

* `Pattern.Atom` : what a single character or an escape stands for;
* `Pattern.readEscape` : the atom of an escape, of which the backslash is already passed.
-/

namespace SecretMount.Pattern

inductive Atom where
  | literal (c : Char)
  /-- One of the characters of a class. -/
  | category
  /-- A place between characters. -/
  | edge
deriving DecidableEq, Repr

/-- The number that `count` hexadecimal digits spell. -/
def readHex (count : Nat) : Reading Nat := do
  let digits ← (List.range count).mapM fun _ => do
    skipSpace
    next
  match Numeral.ofRadix? 16 digits with
  | some n => return n
  | none => failure

/-- The character with the number that `count` digits spell. Two digits spell a byte where bytes
are matched, and a byte beyond ASCII is no character. -/
def readCode (count : Nat) : Reading Atom := do
  let n ← readHex count
  require (n.isValidChar && ((← get).unicode || count != 2 || n < 0x80))
  return .literal (Char.ofNat n)

/-- The general category that a letter stands for. -/
def readCategory : Reading Atom := do
  requireUnicode
  skipSpace
  let c ← next
  require ("clmnpsz".toList.contains c.toLower)
  return .category

/-- The letters that stand for control characters. -/
def control? (c : Char) : Option Char :=
  match c with
  | 'a' => some '\x07'
  | 'f' => some '\x0c'
  | 't' => some '\t'
  | 'n' => some '\n'
  | 'r' => some '\r'
  | 'v' => some '\x0b'
  | _ => none

/-- Whether `c` stands for itself behind a backslash. -/
def isEscapable (c : Char) : Bool := c.toNat < 0x80 && !c.isAlphanum && c != '<' && c != '>'

def readEscape : Reading Atom := do
  let c ← next
  match c, control? c with
  | _, some control => return .literal control
  | 'x', _ => readCode 2
  | 'u', _ => readCode 4
  | 'U', _ => readCode 8
  | 'p', _ | 'P', _ => readCategory
  | 'd', _ | 's', _ | 'w', _ => return .category
  | 'D', _ | 'S', _ | 'W', _ =>
    requireUnicode
    return .category
  | 'A', _ | 'z', _ => return .edge
  | 'b', _ | 'B', _ | '<', _ | '>', _ =>
    require (!(← get).unicode)
    return .edge
  | c, _ =>
    require (isEscapable c)
    return .literal c

end SecretMount.Pattern
