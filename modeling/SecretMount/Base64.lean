import SecretMount.Text.Utf8

/-!
# Base64

The standard alphabet with canonical padding: text comes in groups of four, the last of which may
end in one or two `=`, and bits that belong to no byte are zero.

* `Base64.encode` : the text of some bytes;
* `Base64.decode` : the bytes of a text;
* `Base64.Fault` : why a text stands for no bytes, with the place of the fault.
-/

namespace SecretMount.Base64

inductive Fault where
  /-- A byte that does not belong where it stands. -/
  | symbol (byte : UInt8) (offset : Nat)
  /-- The last symbol has bits that belong to no byte. -/
  | lastSymbol (byte : UInt8) (offset : Nat)
  /-- One symbol too many: the text has `n`, counted to that symbol. -/
  | length (n : Nat)
  /-- Too few `=` at the end. -/
  | padding
deriving DecidableEq, Repr

def Fault.message : Fault → String
  | .symbol byte offset => s!"Invalid symbol {byte}, offset {offset}."
  | .lastSymbol byte offset => s!"Invalid last symbol {byte}, offset {offset}."
  | .length n => s!"Invalid input length: {n}"
  | .padding => "Invalid padding"

/-- The byte `=`. -/
def pad : UInt8 := 61

/-! ## The alphabet -/

/-- The symbol of a number below 64. -/
def symbol (n : Nat) : UInt8 :=
  if n < 26 then UInt8.ofNat (n + 65)
  else if n < 52 then UInt8.ofNat (n + 71)
  else if n < 62 then UInt8.ofNat (n - 4)
  else if n = 62 then 43
  else 47

/-- The number of a symbol. -/
def index? (b : UInt8) : Option Nat :=
  let n := b.toNat
  if 65 ≤ n ∧ n ≤ 90 then some (n - 65)
  else if 97 ≤ n ∧ n ≤ 122 then some (n - 71)
  else if 48 ≤ n ∧ n ≤ 57 then some (n + 4)
  else if n = 43 then some 62
  else if n = 47 then some 63
  else none

/-! ## Encoding -/

def encode : Bytes → Bytes
  | [] => []
  | [a] =>
    let n := a.toNat * 16
    [symbol (n / 64), symbol (n % 64), pad, pad]
  | [a, b] =>
    let n := (a.toNat * 256 + b.toNat) * 4
    [symbol (n / 4096), symbol (n / 64 % 64), symbol (n % 64), pad]
  | a :: b :: c :: r =>
    let n := (a.toNat * 256 + b.toNat) * 256 + c.toNat
    symbol (n / 262144) :: symbol (n / 4096 % 64) :: symbol (n / 64 % 64) :: symbol (n % 64)
      :: encode r

/-! ## Decoding -/

/-- The numbers of symbols of which the first stands at `offset`. -/
def indices (offset : Nat) : Bytes → Except Fault (List Nat)
  | [] => .ok []
  | b :: r =>
    match index? b with
    | none => .error (.symbol b offset)
    | some n => (indices (offset + 1) r).map (n :: ·)

/-- The bytes of two, three or four symbols, where `last` is the last of them and stands at
`offset`. -/
def join (last : UInt8) (offset : Nat) : List Nat → Except Fault Bytes
  | [i, j] =>
    if j % 16 = 0 then .ok [UInt8.ofNat ((i * 64 + j) / 16)] else .error (.lastSymbol last offset)
  | [i, j, k] =>
    let n := (i * 64 + j) * 64 + k
    if k % 4 = 0 then .ok [UInt8.ofNat (n / 1024), UInt8.ofNat (n / 4)]
    else .error (.lastSymbol last offset)
  | [i, j, k, l] =>
    let n := ((i * 64 + j) * 64 + k) * 64 + l
    .ok [UInt8.ofNat (n / 65536), UInt8.ofNat (n / 256), UInt8.ofNat n]
  | _ => .ok []

/-- The bytes of the last group, which stands at `offset`. -/
def decodeLast (offset : Nat) (group : Bytes) : Except Fault Bytes := do
  let symbols := group.takeWhile (· != pad)
  let pads := group.dropWhile (· != pad)
  let numbers ← indices offset symbols
  let count := symbols.length
  if pads ≠ [] ∧ (count < 2 ∨ pads.any (· != pad)) then .error (.symbol pad (offset + count))
  else if count < 2 then .error (.length (offset + count))
  else if (count + pads.length) % 4 ≠ 0 then .error .padding
  else join (symbols.getLast?.getD pad) (offset + count - 1) numbers

/-- The bytes of the groups from `offset` on. -/
def decodeGroups (offset : Nat) : Bytes → Except Fault Bytes
  | [] => .ok []
  | a :: b :: c :: d :: e :: r => do
    let numbers ← indices offset [a, b, c, d]
    let first ← join d (offset + 3) numbers
    let others ← decodeGroups (offset + 4) (e :: r)
    return first ++ others
  | group => decodeLast offset group

/-- The bytes that `text` stands for. A byte that is no symbol and stands alone behind the last
group is reported before anything else. -/
def decode (text : Bytes) : Except Fault Bytes :=
  let last := text.getLast?.getD pad
  if text.length % 4 = 1 ∧ last ≠ pad ∧ (index? last).isNone then
    .error (.symbol last (text.length - 1))
  else decodeGroups 0 text

end SecretMount.Base64
