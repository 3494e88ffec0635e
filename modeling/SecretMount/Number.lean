import SecretMount.Number.Shortest

/-!
# Numbers and their texts

* `Number` : an integer, or a double;
* `Layout` : what a document format decides about the text of a number;
* `Number.text` : the text of a number in a layout. Doubles are written with the fewest digits that
  read back, with a point and at least one decimal while the point is near the digits, and with an
  exponent beyond.
-/

namespace SecretMount

/-- A number as documents know it. -/
inductive Number where
  | int (i : Int)
  | real (x : Float)

/-- How a document format writes doubles. -/
structure Layout where
  /-- Whether a positive exponent has its sign. -/
  plusSign : Bool
  infinity : String
  notANumber : String

namespace Layout

def exponentText (layout : Layout) (e : Int) : List Char :=
  if e < 0 then '-' :: Nat.toDigits 10 e.natAbs
  else if layout.plusSign then '+' :: Nat.toDigits 10 e.natAbs
  else Nat.toDigits 10 e.natAbs

/-- The decimal `ds * 10 ^ e`: with a point while it lies at most sixteen places behind the first
digit, or at most five zeros before it. -/
def decimalText (layout : Layout) (ds : List Char) (e : Int) : List Char :=
  let point := (ds.length : Int) + e
  if 0 ≤ e ∧ point ≤ 16 then ds ++ List.replicate e.toNat '0' ++ ['.', '0']
  else if 0 < point ∧ point ≤ 16 then ds.take point.toNat ++ '.' :: ds.drop point.toNat
  else if -5 < point ∧ point ≤ 0 then '0' :: '.' :: List.replicate (-point).toNat '0' ++ ds
  else
    let fraction := match ds.drop 1 with
      | [] => []
      | rest => '.' :: rest
    ds.take 1 ++ fraction ++ 'e' :: layout.exponentText (point - 1)

/-- The text of the absolute value of a double. -/
def magnitudeText (layout : Layout) (x : Float) : List Char :=
  if x.isInf then layout.infinity.toList
  else if (Shortest.parts x).1 = 0 then ['0', '.', '0']
  else
    let (d, e) := Shortest.digits x
    layout.decimalText (Nat.toDigits 10 d) e

/-- Whether the sign bit is set. -/
def isNegative (x : Float) : Bool := 0x8000000000000000 ≤ x.toBits.toNat

def realText (layout : Layout) (x : Float) : String :=
  if x.isNaN then layout.notANumber
  else String.ofList ((if isNegative x then ['-'] else []) ++ layout.magnitudeText x)

end Layout

def Number.text (layout : Layout) : Number → String
  | .int i => toString i
  | .real x => layout.realText x

/-- Integers are the same when they are equal and doubles when they compare equal or neither is a
number. An integer is never the same as a double. -/
def Number.same : Number → Number → Bool
  | .int i, .int j => i == j
  | .real x, .real y => x == y || (x.isNaN && y.isNaN)
  | _, _ => false

end SecretMount
