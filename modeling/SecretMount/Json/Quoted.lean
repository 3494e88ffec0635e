import SecretMount.Json.Fault

/-!
# Strings of JSON texts

* `Json.readString` : the text between quotes, of which the first is already passed;
* `Json.skipString` : the same without making a text of it: escapes need not stand for characters;
* `Json.quote` : a text between quotes, in which only quotes, backslashes and controls are escaped.
-/

namespace SecretMount.Json

/-! ## Escapes -/

def hexDigit? (b : UInt8) : Option Nat :=
  if 48 ≤ b ∧ b ≤ 57 then some (b.toNat - 48)
  else if 97 ≤ b ∧ b ≤ 102 then some (b.toNat - 87)
  else if 65 ≤ b ∧ b ≤ 70 then some (b.toNat - 55)
  else none

/-- The number of four hexadecimal digits. -/
def readHex : Bytes → Except Stop (Nat × Bytes)
  | a :: b :: c :: d :: r =>
    match hexDigit? a, hexDigit? b, hexDigit? c, hexDigit? d with
    | some a, some b, some c, some d => .ok (((a * 16 + b) * 16 + c) * 16 + d, r)
    | _, _, _, _ => stopBefore .badEscape r
  | _ => stopBefore .endInString []

def isLeading (n : Nat) : Bool := 0xD800 ≤ n && n ≤ 0xDBFF

def isTrailing (n : Nat) : Bool := 0xDC00 ≤ n && n ≤ 0xDFFF

/-- The number of the second half of a pair, `\u` included. -/
def readTrailing : Bytes → Except Stop (Nat × Bytes)
  | [] => stopBefore .endInString []
  | 92 :: r =>
    match r with
    | [] => stopBefore .endInString []
    | 117 :: r => do
      let (n, r) ← readHex r
      if isTrailing n then return (n, r) else stopBefore .loneSurrogate r
    | _ :: r => stopBefore .surrogateUnpaired r
  | _ :: r => stopBefore .surrogateUnpaired r

/-- The character of a `\u`, of which the letter is already passed. -/
def readUnicode (s : Bytes) : Except Stop (Char × Bytes) := do
  let (n, r) ← readHex s
  if isTrailing n then stopBefore .loneSurrogate r
  else if isLeading n then do
    let (m, r) ← readTrailing r
    return (Char.ofNat ((n - 0xD800) * 1024 + (m - 0xDC00) + 0x10000), r)
  else return (Char.ofNat n, r)

/-- The character that a letter behind a backslash stands for, `u` apart. -/
def escaped? (b : UInt8) : Option Char :=
  if b = 34 then some '"'
  else if b = 92 then some '\\'
  else if b = 47 then some '/'
  else if b = 98 then some '\x08'
  else if b = 102 then some '\x0c'
  else if b = 110 then some '\n'
  else if b = 114 then some '\r'
  else if b = 116 then some '\t'
  else none

/-- The character of an escape, of which the backslash is already passed. -/
def readEscape : Bytes → Except Stop (Char × Bytes)
  | [] => stopBefore .endInString []
  | 117 :: r => readUnicode r
  | b :: r =>
    match escaped? b with
    | some c => .ok (c, r)
    | none => stopBefore .badEscape r

/-! ## Strings -/

/-- The bytes up to the closing quote, behind the reversed `before`. No string of more than `fuel`
bytes is read. -/
def readStringBytes : Nat → Bytes → Bytes → Except Stop (Bytes × Bytes)
  | 0, _, s => stopBefore .endInString s
  | _ + 1, _, [] => stopBefore .endInString []
  | fuel + 1, before, b :: r =>
    if b = 34 then .ok (before.reverse, r)
    else if b = 92 then do
      let (c, r) ← readEscape r
      readStringBytes fuel ((String.utf8EncodeChar c).reverse ++ before) r
    else if b < 32 then stopBefore .controlInString r
    else readStringBytes fuel (b :: before) r

/-- The text up to the closing quote. Bytes that stand for no character are only found when all of
the string is read, and the place of the first is counted back from the closing quote as if no
character behind it were escaped. -/
def readString (s : Bytes) : Except Stop (String × Bytes) := do
  let (bs, r) ← readStringBytes (s.length + 1) [] s
  match Text.decode? bs with
  | some t => return (t, r)
  | none => .error ⟨.notUnicode, r.length + (Text.undecoded bs).length⟩

/-- Passes over an escape, of which the backslash is already passed. -/
def skipEscape : Bytes → Except Stop (Unit × Bytes)
  | [] => stopBefore .endInString []
  | 117 :: r => do
    let (_, r) ← readHex r
    return ((), r)
  | b :: r => if (escaped? b).isSome then .ok ((), r) else stopBefore .badEscape r

/-- Passes over at most `fuel` bytes and escapes and the closing quote. -/
def skipStringBytes : Nat → Bytes → Except Stop (Unit × Bytes)
  | 0, s => stopBefore .endInString s
  | _ + 1, [] => stopBefore .endInString []
  | fuel + 1, b :: r =>
    if b = 34 then .ok ((), r)
    else if b = 92 then do
      let (_, r) ← skipEscape r
      skipStringBytes fuel r
    else if b < 32 then stopBefore .controlInString r
    else skipStringBytes fuel r

/-- Passes over the string up to the closing quote. -/
def skipString (s : Bytes) : Except Stop (Unit × Bytes) := skipStringBytes (s.length + 1) s

/-! ## Writing -/

def hexDigit (n : Nat) : Char := Nat.digitChar n

/-- The way `c` is written between quotes. -/
def quoteChar (c : Char) : List Char :=
  match c with
  | '"' => ['\\', '"']
  | '\\' => ['\\', '\\']
  | '\x08' => ['\\', 'b']
  | '\x0c' => ['\\', 'f']
  | '\n' => ['\\', 'n']
  | '\r' => ['\\', 'r']
  | '\t' => ['\\', 't']
  | c =>
    if c.toNat < 32 then ['\\', 'u', '0', '0', hexDigit (c.toNat / 16), hexDigit (c.toNat % 16)]
    else [c]

def quoteChars (s : String) : List Char := '"' :: (s.toList.flatMap quoteChar ++ ['"'])

/-- `s` between quotes. -/
def quote (s : String) : String := String.ofList (quoteChars s)

end SecretMount.Json
