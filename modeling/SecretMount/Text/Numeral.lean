/-!
# Numerals

* `Numeral.read` : the number that a decimal numeral with an optional `+` stands for, at most a
  given bound;
* `Numeral.ofRadix?` : the number that digits of a radix stand for;
* `Numeral.Fault` : why a text is no such numeral. It is read from left to right and the first
  fault counts: a digit that carries the value past the bound is found before a letter after it.
-/

namespace SecretMount.Numeral

inductive Fault where
  | empty
  | notADigit
  | tooLarge
deriving DecidableEq, Repr

def Fault.message : Fault → String
  | .empty => "cannot parse integer from empty string"
  | .notADigit => "invalid digit found in string"
  | .tooLarge => "number too large to fit in target type"

/-- The value of a digit in radices up to sixteen. -/
def digit? (c : Char) : Option Nat :=
  if c.isDigit then some (c.toNat - 48)
  else if 'a' ≤ c ∧ c ≤ 'f' then some (c.toNat - 87)
  else if 'A' ≤ c ∧ c ≤ 'F' then some (c.toNat - 55)
  else none

/-- `digit?` below `radix`. -/
def digitBelow? (radix : Nat) (c : Char) : Option Nat := (digit? c).filter (· < radix)

/-- `value`, with the digits `cs` written behind it, at most `bound`. -/
def extend (radix bound value : Nat) : List Char → Except Fault Nat
  | [] => .ok value
  | c :: cs =>
    match digitBelow? radix c with
    | none => .error .notADigit
    | some d =>
      if bound < value * radix + d then .error .tooLarge
      else extend radix bound (value * radix + d) cs

/-- The number that `cs` stands for in `radix`. A lone sign is no numeral. -/
def readChars (radix bound : Nat) (cs : List Char) : Except Fault Nat :=
  match cs with
  | [] => .error .empty
  | ['+'] | ['-'] => .error .notADigit
  | '+' :: ds => extend radix bound 0 ds
  | ds => extend radix bound 0 ds

/-- The number, at most `bound`, that the decimal numeral `s` stands for. -/
def read (bound : Nat) (s : String) : Except Fault Nat := readChars 10 bound s.toList

/-- The digits of `radix` in `cs`, at least one and nothing else, as a number. -/
def ofRadix? (radix : Nat) (cs : List Char) : Option Nat :=
  if cs.isEmpty then none
  else cs.foldl (fun value c => value.bind fun n => (digitBelow? radix c).map (n * radix + ·))
    (some 0)

/-- The largest number of 64 bits. -/
def max64 : Nat := 0xFFFFFFFFFFFFFFFF

end SecretMount.Numeral
