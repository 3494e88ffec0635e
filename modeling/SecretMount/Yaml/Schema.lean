import SecretMount.Number
import SecretMount.Number.Decimal
import SecretMount.Yaml.Event

/-!
# What scalars mean

* `Schema.isNull`, `Schema.bool?`, `Schema.int?`, `Schema.float?` : the words and numerals of YAML.
  Integers may be written in the radices 16, 8 and 2; several digits of which the first is a zero
  are no number;
* `Schema.coreTag`, `Schema.customName?` : the tags that say what a scalar is, and the tags that are
  a document's own;
* `Schema.layout` : how numbers are written.
-/

namespace SecretMount.Yaml.Schema

def isNull (s : String) : Bool := s == "null" || s == "Null" || s == "NULL" || s == "~"

def bool? (s : String) : Option Bool :=
  if s == "true" || s == "True" || s == "TRUE" then some true
  else if s == "false" || s == "False" || s == "FALSE" then some false
  else none

/-! ## Integers -/

/-- Whether these are several digits of which the first is a zero, with or without a sign. -/
def hasLeadingZero (cs : List Char) : Bool :=
  let ds := match cs with
    | '-' :: r | '+' :: r => r
    | r => r
  match ds with
  | '0' :: d :: r => (d :: r).all Char.isDigit
  | _ => false

/-- The number that digits stand for, with the mark of their radix in front unless that is ten. -/
def magnitude? (cs : List Char) : Option Nat :=
  match cs with
  | '0' :: 'x' :: r => Numeral.ofRadix? 16 r
  | '0' :: 'o' :: r => Numeral.ofRadix? 8 r
  | '0' :: 'b' :: r => Numeral.ofRadix? 2 r
  | ds => if hasLeadingZero ds then none else Numeral.ofRadix? 10 ds

/-- The integer without a minus sign, of at most `bits` bits, that `cs` stands for. -/
def nat? (bits : Nat) (cs : List Char) : Option Nat :=
  (magnitude? (match cs with
    | '+' :: r => r
    | r => r)).filter (· < Nat.pow 2 bits)

/-- The integer that `cs` stands for, of at most `bits` bits, where a minus sign takes one. -/
def int? (bits : Nat) (cs : List Char) : Option Int :=
  match cs with
  | '-' :: r => ((magnitude? r).filter (· ≤ Nat.pow 2 (bits - 1))).map fun n => -(n : Int)
  | cs => (nat? bits cs).map Int.ofNat

/-! ## Doubles -/

def notANumber : Float := 0 / 0

/-- The double that `s` stands for. Infinity is written as a word of its own only. -/
def float? (s : String) : Option Float :=
  if [".inf", ".Inf", ".INF", "+.inf", "+.Inf", "+.INF"].contains s then some (1 / 0)
  else if ["-.inf", "-.Inf", "-.INF"].contains s then some (-1 / 0)
  else if [".nan", ".NaN", ".NAN"].contains s then some notANumber
  else (Decimal.read? s.toList).filter Float.isFinite

/-- Doubles have no sign of a positive exponent, and words for what no digits stand for. -/
def layout : Layout := ⟨false, ".inf", ".nan"⟩

/-! ## Tags -/

/-- The tag of the scalars called `name`. -/
def coreTag (name : String) : Bytes := Text.encode ("tag:yaml.org,2002:" ++ name)

/-- The byte `!`. -/
def bang : UInt8 := 33

/-- `name` without a `!` in front, unless that is all of it. -/
def dropBang (name : Bytes) : Bytes :=
  match name with
  | b :: c :: r => if b = bang then c :: r else name
  | name => name

/-- The name in a tag that is a document's own: such tags start with `!`. -/
def customName? (tag : Option Bytes) : Option Bytes :=
  (tag.filter fun t => t.head? == some bang && (Text.decodeChars? t).isSome).map dropBang

/-- Whether the tag of a scalar may say that it is of the kind `name`: a plain scalar is tried
whatever its tag. -/
def mayBe (name : String) (s : Scalar) : Bool :=
  s.style = .plain || (s.style = .literal && s.tag == some (coreTag name))

end SecretMount.Yaml.Schema
