import SecretMount.Json.Fault
import SecretMount.Number
import SecretMount.Text.Numeral

/-!
# Numbers of JSON texts

* `Json.NumberToken` : sign, digits and exponent of a number as it is written;
* `Json.NumberToken.read` : the longest number at the start of a text;
* `Json.NumberToken.value` : the number that a token stands for. Integers of 64 bits, with or
  without a sign, stay integers; a zero with a minus sign, fractions, exponents and larger integers
  are doubles. The digits of a double are gathered into 64 bits while they fit, later ones only
  count as places, and the result is multiplied or divided once by a power of ten: so the value is
  near, but need not be nearest, to what is written.
* `Json.layout` : how doubles are written.
-/

namespace SecretMount.Json

structure NumberToken where
  negative : Bool
  whole : List Nat
  fraction : List Nat
  /-- Whether the exponent is negative, and its digits. -/
  exponent : Option (Bool × List Nat)
deriving DecidableEq, Repr

/-- The value of a decimal digit. -/
def digit? (b : UInt8) : Option Nat := if 48 ≤ b ∧ b ≤ 57 then some (b.toNat - 48) else none

/-- The digits at the start of `s`, and what follows. -/
def takeDigits : Bytes → List Nat × Bytes
  | [] => ([], [])
  | b :: r =>
    match digit? b with
    | some d => (d :: (takeDigits r).1, (takeDigits r).2)
    | none => ([], b :: r)

/-! ## Reading -/

/-- The digits before the point: a zero stands alone. -/
def readWhole : Bytes → Except Stop (List Nat × Bytes)
  | [] => stopBefore .endInValue []
  | b :: r =>
    match digit? b with
    | none => stopBefore .badNumber r
    | some 0 =>
      match takeDigits r with
      | ([], _) => .ok ([0], r)
      | _ => stopBehind .badNumber r
    | some d => .ok (d :: (takeDigits r).1, (takeDigits r).2)

/-- A point and at least one digit, if there is a point. -/
def readFraction : Bytes → Except Stop (List Nat × Bytes)
  | 46 :: r =>
    match takeDigits r with
    | ([], []) => stopBefore .endInValue []
    | ([], s) => stopBehind .badNumber s
    | (ds, s) => .ok (ds, s)
  | s => .ok ([], s)

/-- The sign of an exponent. -/
def readExponentSign : Bytes → Bool × Bytes
  | 43 :: r => (false, r)
  | 45 :: r => (true, r)
  | r => (false, r)

/-- A letter `e`, a sign if there is one and at least one digit, if there is a letter. -/
def readExponent (s : Bytes) : Except Stop (Option (Bool × List Nat) × Bytes) :=
  match s with
  | [] => .ok (none, [])
  | b :: r =>
    if b = 101 ∨ b = 69 then
      let (negative, r) := readExponentSign r
      match r with
      | [] => stopBefore .endInValue []
      | _ :: behind =>
        match takeDigits r with
        | ([], _) => stopBefore .badNumber behind
        | (ds, rest) => .ok (some (negative, ds), rest)
    else .ok (none, s)

/-- The number behind the sign. -/
def NumberToken.read (negative : Bool) (s : Bytes) : Except Stop (NumberToken × Bytes) := do
  let (whole, s) ← readWhole s
  let (fraction, s) ← readFraction s
  let (exponent, s) ← readExponent s
  return (⟨negative, whole, fraction, exponent⟩, s)

/-! ## Value -/

/-- `significand` with as many of `ds` behind it as 64 bits hold, and how many these are. -/
def gather (significand : Nat) : List Nat → Nat × Nat
  | [] => (significand, 0)
  | d :: ds =>
    if Numeral.max64 < significand * 10 + d then (significand, 0)
    else
      let (value, count) := gather (significand * 10 + d) ds
      (value, count + 1)

def powerOfTen (n : Nat) : Float := Float.ofScientific 1 false n

/-- `x` divided `count` times by the largest power of ten, until nothing is left. -/
def shrink : Nat → Float → Float
  | 0, x => x
  | count + 1, x => if x == 0 then x else shrink count (x / powerOfTen 308)

/-- `x * 10 ^ e`, unless that is too large. -/
def scale? (x : Float) (e : Int) : Option Float :=
  if 0 ≤ e then
    if 308 < e then if x == 0 then some x else none
    else
      let y := x * powerOfTen e.toNat
      if y.isInf then none else some y
  else
    let count := (e.natAbs - 1) / 308
    some (shrink count x / powerOfTen (e.natAbs - 308 * count))

/-- The value of the digits `ds` of an exponent behind `value`, or else how many of them are left
when it has passed 31 bits. -/
def exponentValue (value : Nat) : List Nat → Except Nat Nat
  | [] => .ok value
  | d :: ds =>
    if 0x80000000 ≤ value * 10 + d then .error ds.length else exponentValue (value * 10 + d) ds

/-- The double that a token stands for, where `rest` follows the token. -/
def NumberToken.real (t : NumberToken) (rest : Bytes) : Except Stop Float :=
  let (whole, taken) := gather 0 t.whole
  let (significand, places) := gather whole t.fraction
  let start : Int := (t.whole.length - taken : Nat) - (places : Int)
  let signed (x : Float) : Float := if t.negative then -x else x
  let scaled (e : Int) : Except Stop Float :=
    match scale? (Float.ofNat significand) e with
    | some x => .ok (signed x)
    | none => stopBefore .numberOutOfRange rest
  match t.exponent with
  | none => scaled start
  | some (negative, ds) =>
    match exponentValue 0 ds with
    | .ok e => scaled (if negative then start - e else start + e)
    | .error left =>
      if significand ≠ 0 ∧ ¬negative then .error ⟨.numberOutOfRange, rest.length + left⟩
      else .ok (signed 0)

/-- The integer that a token stands for, if it is written as one and fits. -/
def NumberToken.int? (t : NumberToken) : Option Int :=
  let (n, taken) := gather 0 t.whole
  if t.fraction ≠ [] ∨ t.exponent.isSome ∨ taken ≠ t.whole.length then none
  else if ¬t.negative then some n
  else if 0 < n ∧ n ≤ 0x8000000000000000 then some (-n)
  else none

/-- The number that a token stands for, where `rest` follows the token. -/
def NumberToken.value (t : NumberToken) (rest : Bytes) : Except Stop Number :=
  match t.int? with
  | some i => .ok (.int i)
  | none => (t.real rest).map .real

/-- Doubles have the sign of a positive exponent. The texts of infinity and of what is no number
never occur, since no token stands for them. -/
def layout : Layout := ⟨true, "null", "null"⟩

end SecretMount.Json
