import SecretMount.Text.Numeral

/-!
# Decimals

* `Decimal.nearest` : the double nearest to a decimal;
* `Decimal.read?` : the double that a decimal with a point, an exponent, both or neither stands for.
-/

namespace SecretMount.Decimal

/-- The double nearest to `n * 10 ^ e`, which is a zero or an infinity when `e` is far out. -/
def nearest (n : Nat) (e : Int) : Float :=
  let digits := (Nat.toDigits 10 n).length
  if n = 0 ∨ digits + e < -400 then 0
  else if 400 < digits + e then 1 / 0
  else Float.ofScientific n (e < 0) e.natAbs

/-- The digits at the start of `cs`, and what follows. -/
def takeDigits (cs : List Char) : List Char × List Char :=
  (cs.takeWhile Char.isDigit, cs.dropWhile Char.isDigit)

/-- The exponent that is all of `cs`. -/
def exponent? (cs : List Char) : Option Int :=
  match cs with
  | [] => some 0
  | c :: r =>
    if c = 'e' ∨ c = 'E' then
      match r with
      | '-' :: r => (Numeral.ofRadix? 10 r).map fun n => -(n : Int)
      | '+' :: r => (Numeral.ofRadix? 10 r).map Int.ofNat
      | r => (Numeral.ofRadix? 10 r).map Int.ofNat
    else none

/-- The digits behind a point, if there is one, and what follows. -/
def takeFraction (cs : List Char) : List Char × List Char :=
  match cs with
  | '.' :: r => takeDigits r
  | r => ([], r)

def readMagnitude? (cs : List Char) : Option Float := do
  let (whole, r) := takeDigits cs
  let (fraction, r) := takeFraction r
  let n ← Numeral.ofRadix? 10 (whole ++ fraction)
  let e ← exponent? r
  return nearest n (e - fraction.length)

/-- The double that `cs` stands for. -/
def read? (cs : List Char) : Option Float :=
  match cs with
  | '-' :: r => (readMagnitude? r).map fun x => -x
  | '+' :: r => readMagnitude? r
  | r => readMagnitude? r

end SecretMount.Decimal
