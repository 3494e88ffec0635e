import SecretMount.Yaml.Cursor

/-!
# Folding

The words of a scalar are separated by gaps and line ends.

* `Yaml.Fold` : what stands between two words;
* `Fold.text` : what that means. A single line end is a space, of several the first is dropped, and
  gaps beside line ends are dropped too;
* `Fold.read` : reads what stands before the next word.
-/

namespace SecretMount.Yaml

structure Fold where
  /-- The gaps on the line of the word before. -/
  gaps : List Char
  /-- The first line end. -/
  first : List Char
  /-- The line ends behind the first. -/
  more : List Char
  /-- Whether a line has ended. -/
  broken : Bool

namespace Fold

def nothing : Fold := ⟨[], [], [], false⟩

/-- A line end that stands for nothing. -/
def joined : Fold := ⟨[], [], [], true⟩

/-- Two parts of a broken text: a line feed gives way to a space or to the line ends behind it. -/
def breakText (first more : List Char) : List Char :=
  if first == ['\n'] then if more.isEmpty then [' '] else more
  else first ++ more

def text (f : Fold) : List Char := if f.broken then breakText f.first f.more else f.gaps

/-- Reads gaps and line ends. At the start of a line no tab may stand left of `column`; `start` is
where the scalar starts. -/
def read (column : Nat) (start : Mark) : Nat → Fold → Cursor → Except Fault (Fold × Cursor)
  | 0, f, c => .ok (f, c)
  | fuel + 1, f, c => do
    c.need 1
    match c.rest with
    | [] => return (f, c)
    | b :: _ =>
      if isGap b then
        if f.broken then
          if c.column < column ∧ b = '\t' then c.fail .tabInIndent .plain start
          else read column start fuel f c.skip
        else read column start fuel { f with gaps := f.gaps ++ [b] } c.skip
      else if isBreak b then
        let (t, c) ← c.takeBreak
        if f.broken then read column start fuel { f with more := f.more ++ t } c
        else read column start fuel ⟨[], t, [], true⟩ c
      else return (f, c)

end Fold

end SecretMount.Yaml
