import SecretMount.Text.Utf8

/-!
# Faults of JSON texts

* `Json.Flaw` : what can be wrong;
* `Json.Stop` : a flaw, with the number of bytes that were left where it was found. Readers take
  what is left of a text and give what they found with what they left, so this is the place they
  know;
* `Json.Fault` : a flaw with line and column, as it is reported. Lines count from one; columns count
  bytes, and a line feed is the end of its line.
-/

namespace SecretMount.Json

inductive Flaw where
  | endInList
  | endInObject
  | endInString
  | endInValue
  | expectedColon
  | expectedCommaOrBracket
  | expectedCommaOrBrace
  | expectedWord
  | expectedValue
  | badEscape
  | badNumber
  | numberOutOfRange
  | notUnicode
  | controlInString
  | keyNotString
  | loneSurrogate
  | trailingComma
  | trailingText
  | surrogateUnpaired
  | tooDeep
deriving DecidableEq, Repr

def Flaw.message : Flaw → String
  | .endInList => "EOF while parsing a list"
  | .endInObject => "EOF while parsing an object"
  | .endInString => "EOF while parsing a string"
  | .endInValue => "EOF while parsing a value"
  | .expectedColon => "expected `:`"
  | .expectedCommaOrBracket => "expected `,` or `]`"
  | .expectedCommaOrBrace => "expected `,` or `\x7d`"
  | .expectedWord => "expected ident"
  | .expectedValue => "expected value"
  | .badEscape => "invalid escape"
  | .badNumber => "invalid number"
  | .numberOutOfRange => "number out of range"
  | .notUnicode => "invalid unicode code point"
  | .controlInString => "control character (\\u0000-\\u001F) found while parsing a string"
  | .keyNotString => "key must be a string"
  | .loneSurrogate => "lone leading surrogate in hex escape"
  | .trailingComma => "trailing comma"
  | .trailingText => "trailing characters"
  | .surrogateUnpaired => "unexpected end of hex escape"
  | .tooDeep => "recursion limit exceeded"

structure Stop where
  flaw : Flaw
  left : Nat
deriving DecidableEq, Repr

/-- Stops in front of what is left, `s`. -/
def stopBefore {α : Type} (flaw : Flaw) (s : Bytes) : Except Stop α := .error ⟨flaw, s.length⟩

/-- Stops behind the first byte of what is left, `s`. -/
def stopBehind {α : Type} (flaw : Flaw) (s : Bytes) : Except Stop α :=
  .error ⟨flaw, s.length - 1⟩

structure Fault where
  flaw : Flaw
  line : Nat
  column : Nat
deriving DecidableEq, Repr

def Fault.message (f : Fault) : String :=
  s!"{f.flaw.message} at line {f.line} column {f.column}"

/-- The line feed. -/
def lineFeed : UInt8 := 10

/-- The place where a reader of `text` stopped. -/
def Stop.locate (text : Bytes) (stop : Stop) : Fault :=
  let passed := text.take (text.length - stop.left)
  { flaw := stop.flaw
    line := passed.count lineFeed + 1
    column := (passed.reverse.takeWhile (· != lineFeed)).length }

end SecretMount.Json
