/-!
# Durations

Times and durations are natural numbers of nanoseconds.

* `Duration.seconds`, `Duration.milliseconds` : durations in larger units;
* `Duration.timer` : how long a timer runs, which is thirty years at most;
* `Duration.text` : a duration in the largest unit of which it has at least one, with as many
  decimals as it needs: `1.5s`, `250ms`, `10.01µs`, `0ns`.
-/

namespace SecretMount.Duration

def seconds (n : Nat) : Nat := n * 1000000000

def milliseconds (n : Nat) : Nat := n * 1000000

/-- Thirty years of 365 days. -/
def longest : Nat := seconds (30 * 365 * 86400)

/-- The time for which a timer runs that is set to `n`. None runs beyond `longest`, also where the
clock does: an access that takes forty years is over after thirty. -/
def timer (n : Nat) : Nat := min n longest

/-- The `places` decimals of `n`, without the zeros at their end. -/
def decimals (places n : Nat) : List Char :=
  let ds := Nat.toDigits 10 n
  let padded := List.replicate (places - ds.length) '0' ++ ds
  (padded.reverse.dropWhile (· == '0')).reverse

/-- `n` units of `10 ^ places` each, and what is left of the last. -/
def inUnit (places n : Nat) (unit : String) : String :=
  let whole := toString (n / Nat.pow 10 places)
  match decimals places (n % Nat.pow 10 places) with
  | [] => whole ++ unit
  | ds => whole ++ "." ++ String.ofList ds ++ unit

/-- The duration of `n` nanoseconds as it is written in messages. -/
def text (n : Nat) : String :=
  if 1000000000 ≤ n then inUnit 9 n "s"
  else if 1000000 ≤ n then inUnit 6 n "ms"
  else if 1000 ≤ n then inUnit 3 n "µs"
  else inUnit 0 n "ns"

end SecretMount.Duration
