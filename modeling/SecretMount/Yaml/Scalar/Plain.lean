import SecretMount.Yaml.Scalar.Fold

/-!
# Plain scalars

* `Yaml.Plain.starts` : whether a plain scalar starts at a place;
* `Yaml.Plain.read` : its text. It ends before a colon at the end of a word, before a comment,
  before a line that is indented less, and, within brackets or braces, before their punctuation.
-/

namespace SecretMount.Yaml.Plain

/-- The characters that mean something else at the start of a scalar. -/
def isIndicator (c : Char) : Bool := "-?:,[]\x7b\x7d#&*!|>'\"%@\x60".toList.contains c

/-- Whether a plain scalar starts at `rest`, where `inFlow` says whether that stands within
brackets or braces. -/
def starts (inFlow : Bool) (rest : List Char) : Bool :=
  match rest with
  | [] => false
  | c :: r =>
    !(endsWord rest || isIndicator c) ||
      (c == '-' && !(r.head?.map isGap).getD false) ||
      (!inFlow && (c == '?' || c == ':') && !endsWord r)

/-- The punctuation of lists and mappings within brackets or braces. -/
def isPunctuation (c : Char) : Bool := ",[]\x7b\x7d".toList.contains c

/-- Reads on to the end of the word, which goes in front of `text`, backwards. Within brackets or
braces a colon in front of punctuation is refused. -/
def readWord (inFlow : Bool) (start : Mark) : Nat → List Char → Cursor →
    Except Fault (List Char × Cursor)
  | 0, text, c => .ok (text, c)
  | fuel + 1, text, c =>
    match c.rest with
    | [] => .ok (text, c)
    | a :: r =>
      if isGap a || isBreak a then .ok (text, c)
      else if inFlow && a == ':' && c.skip.seesAny fun b => isPunctuation b || b == '?' then
        c.fail .colon .plain start
      else if (a == ':' && endsWord r) || (inFlow && isPunctuation a) then .ok (text, c)
      else do
        c.skip.need 2
        readWord inFlow start fuel (a :: text) c.skip

/-- Reads on to the end of the scalar; `fold` is what stands before the cursor. Also tells whether
the scalar was followed by the end of a line. -/
def readWords (inFlow : Bool) (column : Nat) (start : Mark) : Nat → List Char → Fold → Cursor →
    Except Fault (List Char × Cursor × Bool)
  | 0, text, fold, c => .ok (text.reverse, c, fold.broken)
  | fuel + 1, text, fold, c => do
    c.need 4
    if c.atDocumentMark || c.sees '#' then return (text.reverse, c, fold.broken)
    else do
      let (word, next) ← readWord inFlow start fuel [] c
      let (text, fold) :=
        if word.isEmpty then (text, fold) else (word ++ (fold.text.reverse ++ text), Fold.nothing)
      if endsWord next.rest && !next.rest.isEmpty then do
        let (fold, next) ← Fold.read column start fuel fold next
        if !inFlow && next.column < column then return (text.reverse, next, fold.broken)
        else readWords inFlow column start fuel text fold next
      else return (text.reverse, next, fold.broken)

/-- The text of the scalar at the cursor, whose lines start at `column` or behind it. -/
def read (inFlow : Bool) (column : Nat) (c : Cursor) :
    Except Fault (List Char × Cursor × Bool) :=
  readWords inFlow column c.mark c.fuel [] .nothing c

end SecretMount.Yaml.Plain
