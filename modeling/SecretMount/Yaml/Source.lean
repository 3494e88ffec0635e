import SecretMount.Text.Utf8
import SecretMount.Yaml.Cursor

/-!
# The bytes of YAML texts

* `Yaml.Source` : the characters of a text, which may break off;
* `Source.read` : the characters that bytes stand for. Bytes are looked at in blocks, and a block
  with a flaw has no characters, so the flaw is found before any other in it. Only a character that
  is not complete at the end leaves the characters before it.
-/

namespace SecretMount.Yaml

structure Source where
  text : List Char
  /-- What is wrong about the bytes behind the text, if it breaks off. -/
  cut : Option Fault

namespace Source

/-- The length of a sequence that starts with `a`. -/
def width? (a : UInt8) : Option Nat :=
  if a < 0x80 then some 1
  else if a < 0xC0 then none
  else if a < 0xE0 then some 2
  else if a < 0xF0 then some 3
  else if a < 0xF8 then some 4
  else none

/-- Whether a sequence of `width` bytes that starts with `a` and `r` is longer than it has to be. -/
def isOverlong (width : Nat) (a : UInt8) (r : Bytes) : Bool :=
  match width with
  | 2 => a < 0xC2
  | 3 => a == 0xE0 && r.headD 0 < 0xA0
  | 4 => a == 0xF0 && r.headD 0 < 0x90
  | _ => false

/-- Why `a` and `r` start with no character, and the place of the byte that is to blame. -/
def flaw (a : UInt8) (r : Bytes) : ByteFlaw × Nat :=
  match width? a with
  | none => (.leading, 0)
  | some width =>
    if r.length + 1 < width then (.incomplete, 0)
    else match (r.take (width - 1)).findIdx? (!Text.isTail ·) with
      | some k => (.trailing, k + 1)
      | none => (if isOverlong width a r then .length else .notUnicode, 0)

/-- How many bytes are looked at together. -/
def blockLength : Nat := 16384

/-- What is wrong about the bytes of a block that starts at `offset`, and the characters at its
start up to there. -/
def readBlock (offset : Nat) (block : Bytes) : List Char × Option (ByteFlaw × Nat) :=
  let rest := Text.undecoded block
  let decoded := block.length - rest.length
  let text := (Text.decodeChars? (block.take decoded)).getD []
  let printable := text.takeWhile isPrintable
  if printable.length < text.length then
    (printable, some (.control, offset + (Text.encode (String.ofList printable)).length))
  else match rest with
    | [] => (text, none)
    | a :: r =>
      let (flaw, k) := flaw a r
      (text, some (flaw, offset + decoded + k))

/-- The text that `bs` encodes, behind `text`, which takes `offset` bytes. A character that is not
complete in its block starts the next one. -/
def readFrom : Nat → Nat → List Char → Bytes → Source
  | 0, _, text, _ => ⟨text, none⟩
  | fuel + 1, offset, text, bs =>
    match readBlock offset (bs.take blockLength) with
    | (more, none) =>
      if bs.length ≤ blockLength then ⟨text ++ more, none⟩
      else readFrom fuel (offset + blockLength) (text ++ more) (bs.drop blockLength)
    | (more, some (.incomplete, place)) =>
      if bs.length ≤ blockLength then ⟨text ++ more, some (.bytes .incomplete place)⟩
      else readFrom fuel place (text ++ more) (bs.drop (place - offset))
    | (_, some (flaw, place)) => ⟨text, some (.bytes flaw place)⟩

/-- The text that `bs` encodes. -/
def read (bs : Bytes) : Source := readFrom (bs.length + 1) 0 [] bs

end Source

end SecretMount.Yaml
