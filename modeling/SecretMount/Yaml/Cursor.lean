import SecretMount.Yaml.Fault

/-!
# Places in YAML texts

* `Yaml.isPrintable` : the characters that a YAML text may hold;
* `Yaml.isGap`, `Yaml.isBreak`, `Yaml.isWordChar` : gaps are spaces and tabs, and breaks end lines;
* `Yaml.Cursor` : what is left of a text, with the place where that begins;
* `Cursor.need` : fails where a text breaks off before as many characters as are needed;
* `Cursor.skip`, `Cursor.skipBreak`, `Cursor.skipWhile` : the cursor behind a character, behind the
  end of a line, behind all characters of a class;
* `Cursor.fail` : the fault that something is wrong at the cursor.
-/

namespace SecretMount.Yaml

/-- Controls other than tab and line ends stand in no YAML text. -/
def isPrintable (c : Char) : Bool :=
  let n := c.toNat
  n == 0x09 || n == 0x0A || n == 0x0D || (0x20 ≤ n && n ≤ 0x7E) || n == 0x85 ||
    (0xA0 ≤ n && n ≤ 0xFFFD) || 0x10000 ≤ n

def isGap (c : Char) : Bool := c == ' ' || c == '\t'

/-- Line feed, carriage return, next line, line separator and paragraph separator. -/
def isBreak (c : Char) : Bool :=
  c == '\n' || c == '\r' || c == '\u0085' || c == '\u2028' || c == '\u2029'

/-- The characters of anchors and of the handles of tags. -/
def isWordChar (c : Char) : Bool := c.isAlphanum || c == '_' || c == '-'

/-- Whether a gap, the end of a line or the end of the text comes first. -/
def endsWord : List Char → Bool
  | [] => true
  | c :: _ => isGap c || isBreak c

structure Cursor where
  rest : List Char
  /-- The number of characters of the whole text. -/
  total : Nat
  /-- The number of characters passed. -/
  index : Nat
  line : Nat
  column : Nat
  /-- Why the text breaks off, if it has no end. -/
  cut : Option Fault

namespace Cursor

/-- The start of `text`. -/
def start (text : List Char) (cut : Option Fault) : Cursor := ⟨text, text.length, 0, 0, 0, cut⟩

def mark (c : Cursor) : Mark := ⟨c.line, c.column⟩

/-- The text has a flaw at the cursor, found during an activity that started at `start`. -/
def fail {α : Type} (c : Cursor) (flaw : Flaw) (activity : Activity) (start : Mark) :
    Except Fault α :=
  .error (.form flaw c.mark (some (activity, start)))

/-- Fails if the text breaks off before `n` more characters. -/
def need (n : Nat) (c : Cursor) : Except Fault Unit :=
  match c.cut with
  | some f => if (c.rest.take n).length < n then .error f else .ok ()
  | none => .ok ()

/-- A number of steps in which everything that is left can be passed. -/
def fuel (c : Cursor) : Nat := c.total + 2

def skip (c : Cursor) : Cursor :=
  { c with rest := c.rest.drop 1, index := c.index + 1, column := c.column + 1 }

def skipMany (n : Nat) (c : Cursor) : Cursor :=
  { c with rest := c.rest.drop n, index := c.index + n, column := c.column + n }

/-- Whether the next character is `a`. -/
def sees (a : Char) (c : Cursor) : Bool := c.rest.head? == some a

/-- Whether the next character is of a class. -/
def seesAny (p : Char → Bool) (c : Cursor) : Bool := (c.rest.head?.map p).getD false

/-- The start of the next line, `n` characters on, where `r` is left. -/
def newLine (n : Nat) (r : List Char) (c : Cursor) : Cursor :=
  { c with rest := r, index := c.index + n, line := c.line + 1, column := 0 }

/-- The text that the end of a line stands for and the start of the next line. Only the line
separator and the paragraph separator stand for themselves, all others for a line feed. A second
character is needed, for a carriage return and a line feed end one line. -/
def takeBreak (c : Cursor) : Except Fault (List Char × Cursor) := do
  c.need 2
  match c.rest with
  | '\r' :: '\n' :: r => return (['\n'], c.newLine 2 r)
  | b :: r =>
    if isBreak b then
      return ([if b == '\u2028' || b == '\u2029' then b else '\n'], c.newLine 1 r)
    else return ([], c)
  | [] => return ([], c)

def skipBreak (c : Cursor) : Except Fault Cursor := do
  let (_, c) ← c.takeBreak
  return c

/-- The characters of a class at the start of what is left, and what follows them. The character
behind them is needed. -/
def takeWhile (p : Char → Bool) (c : Cursor) : Except Fault (List Char × Cursor) := do
  let taken := c.rest.takeWhile p
  let c := c.skipMany taken.length
  c.need 1
  return (taken, c)

def skipWhile (p : Char → Bool) (c : Cursor) : Except Fault Cursor := do
  let (_, c) ← c.takeWhile p
  return c

/-- Passes over what is left on the line, which may be a gap with or without a comment behind it. -/
def endLine (c : Cursor) (activity : Activity) (start : Mark) : Except Fault Cursor := do
  let c ← c.skipWhile isGap
  let c ← if c.sees '#' then c.skipWhile (!isBreak ·) else pure c
  if c.rest.isEmpty then return c
  else if c.seesAny isBreak then c.skipBreak
  else c.fail .noLineEnd activity start

/-- Whether a line starts here with three times `a` alone. -/
def atMark (a : Char) (c : Cursor) : Bool :=
  c.column == 0 && c.rest.take 3 == [a, a, a] && endsWord (c.rest.drop 3)

/-- Whether a document starts or ends here. -/
def atDocumentMark (c : Cursor) : Bool := c.atMark '-' || c.atMark '.'

end Cursor

end SecretMount.Yaml
