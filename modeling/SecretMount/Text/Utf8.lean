/-!
# UTF-8

* `Bytes` : payloads, files and documents, byte by byte;
* `Text.encode` : the bytes of a text;
* `Text.decode?` : the text that has these bytes, if there is one. Sequences longer than needed,
  surrogates and numbers beyond U+10FFFF stand for no character: each is ruled out by the range
  in which the second byte of its sequence may lie;
* `Text.undecoded` : what follows the characters at the start of some bytes.
-/

namespace SecretMount

abbrev Bytes := List UInt8

namespace Text

/-- The bytes of `s`. -/
def encode (s : String) : Bytes := s.toList.flatMap String.utf8EncodeChar

/-- A byte that continues a sequence. -/
def isTail (b : UInt8) : Bool := 0x80 ≤ b && b ≤ 0xBF

/-- The bytes that may follow `a`, the first of a sequence of two or more. -/
def secondRange (a : UInt8) : UInt8 × UInt8 :=
  if a == 0xE0 then (0xA0, 0xBF)
  else if a == 0xED then (0x80, 0x9F)
  else if a == 0xF0 then (0x90, 0xBF)
  else if a == 0xF4 then (0x80, 0x8F)
  else (0x80, 0xBF)

def isSecond (a b : UInt8) : Bool := (secondRange a).1 ≤ b && b ≤ (secondRange a).2

/-- The six low bits of a byte that continues a sequence. -/
def tailBits (b : UInt8) : Nat := b.toNat % 64

/-- The characters that `bs` encodes. -/
def decodeChars? : Bytes → Option (List Char)
  | [] => some []
  | a :: r =>
    if a < 0x80 then
      (decodeChars? r).map (Char.ofNat a.toNat :: ·)
    else match r with
    | [] => none
    | b :: r =>
      if 0xC2 ≤ a && a ≤ 0xDF && isTail b then
        (decodeChars? r).map (Char.ofNat (a.toNat % 32 * 64 + tailBits b) :: ·)
      else match r with
      | [] => none
      | c :: r =>
        if 0xE0 ≤ a && a ≤ 0xEF && isSecond a b && isTail c then
          (decodeChars? r).map
            (Char.ofNat (a.toNat % 16 * 4096 + tailBits b * 64 + tailBits c) :: ·)
        else match r with
        | [] => none
        | d :: r =>
          if 0xF0 ≤ a && a ≤ 0xF4 && isSecond a b && isTail c && isTail d then
            (decodeChars? r).map
              (Char.ofNat (a.toNat % 8 * 262144 + tailBits b * 4096 + tailBits c * 64 + tailBits d)
                :: ·)
          else none

/-- The text that `bs` encodes. -/
def decode? (bs : Bytes) : Option String := (decodeChars? bs).map String.ofList

/-- The length of the character at the start of `bs`. -/
def charLength? (bs : Bytes) : Option Nat :=
  [1, 2, 3, 4].find? fun n => n ≤ bs.length && (decodeChars? (bs.take n)).isSome

/-- What follows the next `n` bytes and the characters behind them. -/
def undecodedAfter : Nat → Bytes → Bytes
  | _, [] => []
  | n + 1, _ :: r => undecodedAfter n r
  | 0, b :: r =>
    match charLength? (b :: r) with
    | some n => undecodedAfter (n - 1) r
    | none => b :: r

/-- `bs` from the first byte on that starts no character. -/
def undecoded (bs : Bytes) : Bytes := undecodedAfter 0 bs

end Text

end SecretMount
