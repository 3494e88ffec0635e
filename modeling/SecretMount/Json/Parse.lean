import SecretMount.Json.Skip
import SecretMount.Json.Value

/-!
# Reading JSON texts

* `Json.Shape` : what of a document is read. Members that a record does not know are passed over;
* `Json.readValue` : the value at the start of a text;
* `Json.parseAs`, `Json.parse` : the value of a text, as a shape or all of it.

Lists and objects may be nested 127 deep.
-/

namespace SecretMount.Json

inductive Shape where
  /-- All of the value. -/
  | whole
  | listOf (item : Shape)
  /-- An object with these keys, or a list of their values in this order. -/
  | record (fields : List (String × Shape))

/-- The shape of the item of a list at `index`. -/
def Shape.item (shape : Shape) (index : Nat) : Shape :=
  match shape with
  | whole => whole
  | listOf item => item
  | record fields => ((fields[index]?).map Prod.snd).getD whole

/-- The shape of the member with key `k`, if it is read. -/
def Shape.member? (shape : Shape) (k : String) : Option Shape :=
  match shape with
  | record fields => fields.lookup k
  | _ => some whole

/-- A reader of values at the depth where it stands. -/
abbrev ItemReader := Shape → Bytes → Except Stop (Json × Bytes)

/-- The items from `index` on and the closing bracket. -/
def readItems (item : ItemReader) (shape : Shape) : Nat → Nat → Bytes →
    Except Stop (List Json × Bytes)
  | 0, _, s => stopBefore .endInList s
  | fuel + 1, index, s => do
    let (v, s) ← item (shape.item index) s
    match dropSpace s with
    | [] => stopBefore .endInList []
    | 93 :: r => return ([v], r)
    | 44 :: r =>
      match dropSpace r with
      | [] => stopBefore .endInValue []
      | 93 :: r => stopBehind .trailingComma (93 :: r)
      | r => do
        let (vs, r) ← readItems item shape fuel (index + 1) r
        return (v :: vs, r)
    | r => stopBehind .expectedCommaOrBracket r

/-- The list behind its opening bracket. -/
def readList (item : ItemReader) (shape : Shape) (s : Bytes) :
    Except Stop (List Json × Bytes) :=
  match dropSpace s with
  | [] => stopBefore .endInList []
  | 93 :: r => .ok ([], r)
  | r => readItems item shape (r.length + 1) 0 r

/-- The value behind a key, or nothing when it is passed over. -/
def readMember (item : ItemReader) (shape : Shape) (k : String) (s : Bytes) :
    Except Stop (Option Json × Bytes) :=
  match dropSpace s with
  | [] => stopBefore .endInObject []
  | 58 :: r =>
    match shape.member? k with
    | some shape => do
      let (v, r) ← item shape r
      return (some v, r)
    | none => do
      let r ← skip r
      return (none, r)
  | r => stopBehind .expectedColon r

/-- The members from the quote of a key on and the closing brace. -/
def readMembers (item : ItemReader) (shape : Shape) : Nat → Bytes →
    Except Stop (List (String × Json) × Bytes)
  | 0, s => stopBefore .endInObject s
  | fuel + 1, s => do
    let (k, s) ← readString (s.drop 1)
    let (v?, s) ← readMember item shape k s
    let first := (v?.map fun v => (k, v)).toList
    match dropSpace s with
    | [] => stopBefore .endInObject []
    | 125 :: r => return (first, r)
    | 44 :: r =>
      match dropSpace r with
      | [] => stopBefore .endInValue []
      | 34 :: r => do
        let (vs, r) ← readMembers item shape fuel (34 :: r)
        return (first ++ vs, r)
      | 125 :: r => stopBehind .trailingComma (125 :: r)
      | r => stopBehind .keyNotString r
    | r => stopBehind .expectedCommaOrBrace r

/-- The object behind its opening brace. -/
def readObject (item : ItemReader) (shape : Shape) (s : Bytes) :
    Except Stop (List (String × Json) × Bytes) :=
  match dropSpace s with
  | [] => stopBefore .endInObject []
  | 125 :: r => .ok ([], r)
  | 34 :: r => readMembers item shape (r.length + 1) (34 :: r)
  | r => stopBehind .keyNotString r

/-- The value at the start of `b :: r` when it is neither a list nor an object. -/
def readLeaf (b : UInt8) (r : Bytes) : Except Stop (Json × Bytes) :=
  if b = 110 then (readWord [117, 108, 108] r).map (null, ·)
  else if b = 116 then (readWord [114, 117, 101] r).map (bool true, ·)
  else if b = 102 then (readWord [97, 108, 115, 101] r).map (bool false, ·)
  else if b = 34 then (readString r).map fun (t, r) => (string t, r)
  else if b = 45 ∨ (digit? b).isSome then do
    let (token, r) ← NumberToken.read (b = 45) (if b = 45 then r else b :: r)
    let n ← token.value r
    return (number n, r)
  else stopBehind .expectedValue (b :: r)

/-- The value at the start of a text, with at most `depth` lists and objects in each other. -/
def readValue : Nat → ItemReader
  | depth, shape, s =>
    match dropSpace s with
    | [] => stopBefore .endInValue []
    | 91 :: r =>
      match depth with
      | 0 => stopBehind .tooDeep (91 :: r)
      | depth + 1 => (readList (readValue depth) shape r).map fun (vs, r) => (array vs, r)
    | 123 :: r =>
      match depth with
      | 0 => stopBehind .tooDeep (123 :: r)
      | depth + 1 => (readObject (readValue depth) shape r).map fun (ms, r) => (object ms, r)
    | b :: r => readLeaf b r

/-- The depth to which lists and objects may be nested. -/
def maxDepth : Nat := 127

/-- The value of `text`, behind which there is only white space. -/
def parseAs (shape : Shape) (text : Bytes) : Except Fault Json :=
  let result := do
    let (v, r) ← readValue maxDepth shape text
    match dropSpace r with
    | [] => return v
    | r => stopBehind .trailingText r
  result.mapError (Stop.locate text)

/-- The value of `text`, all of it. -/
def parse (text : Bytes) : Except Fault Json := parseAs .whole text

end SecretMount.Json
