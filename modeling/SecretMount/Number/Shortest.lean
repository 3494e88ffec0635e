/-!
# The fewest digits that read back

A finite double other than zero is `mantissa * 2 ^ exponent`. Every real number nearer to it than
to its neighbours reads back as this double, and so do the two midpoints when the mantissa is even.
Among the decimals that read back, the one written is on the coarsest grid `10 ^ e` that has any,
and there the nearest to the double; of two equally near, the even one.

* `Shortest.parts` : mantissa and exponent of a double;
* `Shortest.Window` : the numbers that read back, over a common unit;
* `Shortest.Window.onGrid?` : the decimal of one grid, if it has one;
* `Shortest.digits` : the decimal that is written.

All arithmetic is exact.
-/

namespace SecretMount.Shortest

/-- The first bit of a mantissa, which is there unless the exponent is the least. -/
def hiddenBit : Nat := 0x10000000000000

/-- Mantissa and exponent of the absolute value of a finite double. -/
def parts (x : Float) : Nat × Int :=
  let bits := x.toBits.toNat
  let e : Nat := bits / hiddenBit % 2048
  let m := bits % hiddenBit
  if e = 0 then (m, -1074) else (m + hiddenBit, (e : Int) - 1075)

/-- The double `value` and the midpoints to its neighbours, all divided by `unit`. -/
structure Window where
  low : Nat
  value : Nat
  high : Nat
  unit : Nat
  /-- The midpoints read back too. -/
  closed : Bool

/-- The window of `m * 2 ^ q`. Below a power of two the neighbour is nearer by half, the least of
the normal doubles apart. -/
def Window.of (m : Nat) (q : Int) : Window :=
  let scale := Nat.pow 2 (q - 2).toNat
  let gap := if m = hiddenBit ∧ -1074 < q then 1 else 2
  { low := (4 * m - gap) * scale
    value := 4 * m * scale
    high := (4 * m + 2) * scale
    unit := Nat.pow 2 (2 - q).toNat
    closed := m % 2 = 0 }

/-- `a` is at most `b`, or less than it where the ends do not count. -/
def Window.precedes (w : Window) (a b : Nat) : Bool := if w.closed then a ≤ b else a < b

/-- The multiple of `10 ^ e` that reads back and is nearest to the value. -/
def Window.onGrid? (w : Window) (e : Int) : Option Nat :=
  let up := Nat.pow 10 (-e).toNat
  let step := Nat.pow 10 e.toNat * w.unit
  let d := w.value * up / step
  let below := w.precedes (w.low * up) (d * step)
  let above := w.precedes ((d + 1) * step) (w.high * up)
  match below, above with
  | false, false => none
  | true, false => some d
  | false, true => some (d + 1)
  | true, true =>
    match compare (2 * (w.value * up)) ((2 * d + 1) * step) with
    | .lt => some d
    | .gt => some (d + 1)
    | .eq => some (if d % 2 = 0 then d else d + 1)

/-- The exponent of the first digit of the value. -/
def Window.leading (w : Window) : Int :=
  if w.unit ≤ w.value then ((Nat.toDigits 10 (w.value / w.unit)).length : Int) - 1
  else
    let inverse := (w.unit + w.value - 1) / w.value
    Int.negOfNat (Nat.toDigits 10 (inverse - 1)).length

/-- The first of `count` grids, ever finer from `10 ^ e` on, that has a decimal. -/
def Window.firstGrid (w : Window) (e : Int) : Nat → Nat × Int
  | 0 => (w.value / w.unit, 0)
  | count + 1 =>
    match w.onGrid? e with
    | some d => (d, e)
    | none => w.firstGrid (e - 1) count

/-- `(d, e)` where `d * 10 ^ e` is the decimal written for the finite double `x`, zero apart. A
power of ten just above the value lies one grid before that of the first digit; on the grid of the
seventeenth digit there is always a decimal. -/
def digits (x : Float) : Nat × Int :=
  let (m, q) := parts x
  let w := Window.of m q
  w.firstGrid (w.leading + 1) 18

end SecretMount.Shortest
