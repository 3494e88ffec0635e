import SecretMount.Yaml.Scalar.Fold
import SecretMount.Text.Numeral

/-!
# Quoted scalars

* `Yaml.Quoted.read` : the text between two quotes. Single quotes know no escape but the quote
  written twice; double quotes know escapes by a letter or by a number.
-/

namespace SecretMount.Yaml.Quoted

/-- The character that a letter behind a backslash stands for. -/
def escaped? (c : Char) : Option Char :=
  match c with
  | '0' => some '\x00'
  | 'a' => some '\x07'
  | 'b' => some '\x08'
  | 't' | '\t' => some '\t'
  | 'n' => some '\n'
  | 'v' => some '\x0b'
  | 'f' => some '\x0c'
  | 'r' => some '\r'
  | 'e' => some '\x1b'
  | ' ' | '"' | '/' | '\\' => some c
  | 'N' => some '\u0085'
  | '_' => some '\u00a0'
  | 'L' => some '\u2028'
  | 'P' => some '\u2029'
  | _ => none

/-- The number of hexadecimal digits behind a letter. -/
def codeLength? (c : Char) : Option Nat :=
  match c with
  | 'x' => some 2
  | 'u' => some 4
  | 'U' => some 8
  | _ => none

/-- The character with the number that `n` digits spell. -/
def readCode (start : Mark) (n : Nat) (c : Cursor) : Except Fault (Char × Cursor) := do
  c.need n
  let digits := c.rest.take n
  match if digits.length = n then Numeral.ofRadix? 16 digits else none with
  | none => c.fail .noHexDigit .escape start
  | some code =>
    if code.isValidChar then return (Char.ofNat code, c.skipMany n)
    else c.fail .notUnicode .escape start

/-- The character that the backslash at the cursor stands for, and what follows. -/
def readEscape (start : Mark) (c : Cursor) : Except Fault (Char × Cursor) :=
  match c.rest with
  | _ :: letter :: _ =>
    match codeLength? letter, escaped? letter with
    | some n, _ => readCode start n (c.skipMany 2)
    | none, some e => .ok (e, c.skipMany 2)
    | none, none => c.fail .unknownEscape .escape start
  | _ => c.fail .unknownEscape .escape start

/-- Reads on to the end of the word, the text of which goes in front of `text`, backwards. Also
tells whether the word ended in a backslash at the end of its line, which joins it to the next. -/
def readWord (quote : Char) (start : Mark) : Nat → List Char → Cursor →
    Except Fault (List Char × Cursor × Bool)
  | 0, text, c => .ok (text, c, false)
  | fuel + 1, text, c =>
    match c.rest with
    | [] => .ok (text, c, false)
    | a :: r =>
      if isGap a || isBreak a then .ok (text, c, false)
      else if a = quote then
        if quote = '\'' ∧ r.head? = some '\'' then do
          (c.skipMany 2).need 2
          readWord quote start fuel ('\'' :: text) (c.skipMany 2)
        else .ok (text, c, false)
      else if quote = '"' ∧ a = '\\' then
        if c.skip.seesAny isBreak then do
          let c ← c.skip.skipBreak
          return (text, c, true)
        else do
          let (e, c) ← readEscape start c
          c.need 2
          readWord quote start fuel (e :: text) c
      else do
        c.skip.need 2
        readWord quote start fuel (a :: text) c.skip

/-- Reads on to the closing quote. No document may start or end in a scalar. -/
def readWords (quote : Char) (start : Mark) : Nat → List Char → Cursor →
    Except Fault (List Char × Cursor)
  | 0, _, c => c.fail .endOfText .quoted start
  | fuel + 1, text, c => do
    c.need 4
    if c.atDocumentMark then c.fail .documentMark .quoted start
    else if c.rest.isEmpty then c.fail .endOfText .quoted start
    else do
      let (text, c, joined) ← readWord quote start fuel text c
      c.need 1
      if c.sees quote then return (text.reverse, c.skip)
      else do
        let (fold, c) ← Fold.read 0 start fuel (if joined then .joined else .nothing) c
        readWords quote start fuel (fold.text.reverse ++ text) c

/-- The text of the scalar at the cursor, which stands at its first quote. -/
def read (quote : Char) (c : Cursor) : Except Fault (List Char × Cursor) :=
  readWords quote c.mark c.fuel [] c.skip

end SecretMount.Yaml.Quoted
