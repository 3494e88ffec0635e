/-!
# Blanks

* `Text.isBlank` : the characters of the Unicode property White_Space;
* `Text.trim` : a text without the blanks at its two ends;
* `Text.isAsciiBlank` : tab, line feed, form feed, carriage return and space, among bytes. The
  vertical tab is a blank of the first kind only.
-/

namespace SecretMount.Text

/-- The property White_Space. -/
def isBlank (c : Char) : Bool :=
  let n := c.toNat
  (0x09 ≤ n && n ≤ 0x0D) || n == 0x20 || n == 0x85 || n == 0xA0 || n == 0x1680 ||
    (0x2000 ≤ n && n ≤ 0x200A) || n == 0x2028 || n == 0x2029 || n == 0x202F || n == 0x205F ||
    n == 0x3000

/-- `cs` without the blanks at its start and at its end. -/
def trimChars (cs : List Char) : List Char :=
  ((cs.dropWhile isBlank).reverse.dropWhile isBlank).reverse

/-- `s` without the blanks at its start and at its end. -/
def trim (s : String) : String := String.ofList (trimChars s.toList)

/-- The bytes that may be strewn over base64 text. -/
def isAsciiBlank (b : UInt8) : Bool :=
  b == 0x09 || b == 0x0A || b == 0x0C || b == 0x0D || b == 0x20

end SecretMount.Text
