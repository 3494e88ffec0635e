import SecretMount.Yaml.Scalar.Fold

/-!
# Block scalars

A scalar whose lines are set apart by their indentation.

* `Yaml.Block.Header` : what stands behind the indicator: whether line ends at the end are kept,
  and how far the lines are indented;
* `Yaml.Block.read` : the text of the scalar.
-/

namespace SecretMount.Yaml.Block

/-- What becomes of the line ends at the end of a scalar. -/
inductive Chomp where
  | strip
  /-- One is kept. -/
  | clip
  | keep
deriving DecidableEq, Repr

structure Header where
  chomp : Chomp
  increment : Option Nat

/-! ## The header -/

def readChomp (c : Cursor) : Except Fault (Option Chomp × Cursor) := do
  c.need 1
  match c.rest with
  | '+' :: _ => return (some .keep, c.skip)
  | '-' :: _ => return (some .strip, c.skip)
  | _ => return (none, c)

/-- A digit from one to nine, if there is a digit. -/
def readIncrement (start : Mark) (c : Cursor) : Except Fault (Option Nat × Cursor) := do
  c.need 1
  match c.rest with
  | d :: _ =>
    if d = '0' then c.fail .zeroIndent .blockScalar start
    else if d.isDigit then return (some (d.toNat - 48), c.skip)
    else return (none, c)
  | [] => return (none, c)

/-- The two parts of the header come in any order. -/
def Header.read (start : Mark) (c : Cursor) : Except Fault (Header × Cursor) := do
  let (before, c) ← readChomp c
  let (increment, c) ← readIncrement start c
  let (chomp, c) ←
    if before.isNone && increment.isSome then readChomp c else pure (before, c)
  let c ← c.endLine .blockScalar start
  return (⟨chomp.getD .clip, increment⟩, c)

/-! ## The lines -/

/-- Passes over indentation and empty lines up to a line with text. The indentation is at most
`indent`, or as large as it is when that is not yet known; `widest` is the widest so far. -/
def readEmpty (start : Mark) (indent : Option Nat) : Nat → Nat → List Char → Cursor →
    Except Fault (Nat × List Char × Cursor)
  | 0, widest, breaks, c => .ok (widest, breaks, c)
  | fuel + 1, widest, breaks, c => do
    let spaces := (c.rest.takeWhile (· == ' ')).length
    let c := c.skipMany (indent.elim spaces fun n => min spaces (n - c.column))
    c.need 1
    let widest := max widest c.column
    let inIndent := indent.elim true (c.column < ·)
    match c.rest with
    | [] => return (widest, breaks, c)
    | b :: _ =>
      if inIndent && b == '\t' then c.fail .tabInBlock .blockScalar start
      else if isBreak b then
        let (t, c) ← c.takeBreak
        readEmpty start indent fuel widest (breaks ++ t) c
      else return (widest, breaks, c)

/-- Reads lines that start at the column `indent`. Their text goes in front of `text`, backwards;
`last` is the end of the line before and `breaks` are the empty lines since; `blank` tells whether
the line before started with a gap. A folded scalar joins lines that both start with a word. -/
def readLines (folded : Bool) (start : Mark) (indent : Nat) :
    Nat → List Char → List Char → List Char → Bool → Cursor →
    Except Fault (List Char × List Char × List Char × Cursor)
  | 0, text, last, breaks, _, c => .ok (text, last, breaks, c)
  | fuel + 1, text, last, breaks, blank, c =>
    match c.rest with
    | [] => .ok (text, last, breaks, c)
    | a :: _ =>
      if c.column = indent then do
        let starts := isGap a
        let between :=
          if folded && last == ['\n'] && !blank && !starts then
            if breaks.isEmpty then [' '] else breaks
          else last ++ breaks
        let (line, c) ← c.takeWhile (!isBreak ·)
        let (last, c) ← c.takeBreak
        let (_, breaks, c) ← readEmpty start (some indent) c.fuel 0 [] c
        readLines folded start indent fuel (line.reverse ++ (between.reverse ++ text)) last breaks
          starts c
      else .ok (text, last, breaks, c)

/-- The text of the scalar at the cursor, which stands at the indicator, in a block that is indented
to `parent`. -/
def read (folded : Bool) (parent : Int) (c : Cursor) : Except Fault (List Char × Cursor) := do
  let start := c.mark
  let (header, c) ← Header.read start c.skip
  let given := header.increment.map fun n => (max parent 0).toNat + n
  let (widest, breaks, c) ← readEmpty start given c.fuel 0 [] c
  let indent := given.getD (max widest (max (parent + 1).toNat 1))
  let (text, last, breaks, c) ← readLines folded start indent c.fuel [] [] breaks false c
  let tail := match header.chomp with
    | .strip => []
    | .clip => last
    | .keep => last ++ breaks
  return (text.reverse ++ tail, c)

end SecretMount.Yaml.Block
