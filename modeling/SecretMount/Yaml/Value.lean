import SecretMount.Text.Quoted
import SecretMount.Yaml.Document
import SecretMount.Yaml.Schema

/-!
# YAML values

* `Yaml.Value` : what a document says. Values with a tag of the document's own keep its name;
* `Value.same` : equality, for which the order of entries does not count;
* `Value.read` : the value of a node. Collections may be nested 128 deep, and no two keys of a
  mapping are the same;
* `Value.parse` : the value of a text.
-/

namespace SecretMount.Yaml

inductive Value where
  | null
  | bool (b : Bool)
  | number (n : Number)
  | string (s : String)
  | list (items : List Value)
  | mapping (entries : List (Value × Value))
  | tagged (name : Bytes) (value : Value)

namespace Value

/-! ## Equality -/

mutual

def same : Value → Value → Bool
  | null, null => true
  | bool a, bool b => a == b
  | number a, number b => a.same b
  | string a, string b => a == b
  | list a, list b => sameItems a b
  | mapping a, mapping b => a.length == b.length && sameEntries a b
  | tagged a v, tagged b w => Schema.dropBang a == Schema.dropBang b && same v w
  | _, _ => false

def sameItems : List Value → List Value → Bool
  | [], [] => true
  | v :: r, w :: s => same v w && sameItems r s
  | _, _ => false

/-- Whether each entry is also one of the others. -/
def sameEntries : List (Value × Value) → List (Value × Value) → Bool
  | [], _ => true
  | (k, v) :: r, others => others.any (fun e => same k e.1 && same v e.2) && sameEntries r others

end

/-! ## Scalars -/

/-- The value of a plain scalar. Integers beyond 64 bits have none while they fit into 128, and are
doubles beyond. -/
def ofPlain (s : String) : Except ValueFlaw Value :=
  if s.isEmpty || Schema.isNull s then .ok null
  else match Schema.bool? s, Schema.int? 64 s.toList with
    | some b, _ => .ok (bool b)
    | none, some i => .ok (number (.int i))
    | none, none =>
      match Schema.int? 128 s.toList with
      | some i => .error (.wideInteger i)
      | none =>
        if Schema.hasLeadingZero s.toList then .ok (string s)
        else .ok (((Schema.float? s).map fun x => number (.real x)).getD (string s))

/-- An integer by its tag. -/
def ofTaggedInt (s : String) : Except ValueFlaw Value :=
  match Schema.int? 64 s.toList, Schema.int? 128 s.toList with
  | some i, _ => .ok (number (.int i))
  | none, some i => .error (.wideInteger i)
  | none, none => .error (.notTagged (Text.quoted s) "an integer")

/-- The value of a scalar with a tag. -/
def ofTagged (tag : Bytes) (s : Scalar) : Except ValueFlaw Value :=
  let value (kind : String) (v : Option Value) : Except ValueFlaw Value :=
    v.elim (.error (.notTagged (Text.quoted s.text) kind)) .ok
  if tag = Schema.coreTag "bool" then value "a boolean" ((Schema.bool? s.text).map bool)
  else if tag = Schema.coreTag "int" then ofTaggedInt s.text
  else if tag = Schema.coreTag "float" then
    value "a float" ((Schema.float? s.text).map fun x => number (.real x))
  else if tag = Schema.coreTag "null" then
    value "null" (if Schema.isNull s.text then some null else none)
  else if tag.head? = some Schema.bang ∧ s.style = .plain then ofPlain s.text
  else .ok (string s.text)

/-- The value of a scalar whose tag is not the document's own, or is already seen to. -/
def ofScalar (tag : Option Bytes) (s : Scalar) : Except ValueFlaw Value :=
  match tag with
  | some tag => ofTagged tag s
  | none => if s.style = .plain then ofPlain s.text else .ok (string s.text)

/-! ## Documents -/

/-- The value under the name of its tag, if that is the document's own. -/
def underTag (tag : Option Bytes) (v : Value) : Value :=
  match Schema.customName? tag with
  | some name => tagged name v
  | none => v

/-- A key in the words of a fault. -/
def keyText : Value → String
  | null => "with null key"
  | bool b => s!"with key \x60{b}\x60"
  | number n => "with key " ++ n.text Schema.layout
  | string s => "with key " ++ Text.quoted s
  | list _ | mapping _ | tagged _ _ => "in YAML map"

/-- The text of a key that is a scalar and no alias. -/
def scalarText? : Tree → Option String
  | .scalar s _ => some s.text
  | _ => none

/-- The entries of a mapping behind those of `before`. Of two equal keys the first is reported. -/
def readEntries (item : Path → Tree → Reading Value) (path : Path) (mark : Mark)
    (before : List (Value × Value)) : List (Tree × Tree) → Reading (List (Value × Value))
  | [] => pure before
  | (k, v) :: r => do
    let key ← item path k
    match before.find? (same key ·.1) with
    | some (first, _) => throw (.value (.repeatedKey (keyText first)) path mark)
    | none =>
      let v ← item (path.value (scalarText? k)) v
      readEntries item path mark (before ++ [(key, v)]) r

/-- The value of `t`, which stands at `path`, with collections nested at most `depth` deep. -/
def read (d : Document) : Nat → Path → Tree → Reading Value
  | depth, path, t => do
    match ← d.follow t with
    | .hole | .reference _ => throw .unfit
    | .scalar s mark =>
      match ofScalar (if (Schema.customName? s.tag).isSome then none else s.tag) s with
      | .ok v => return underTag s.tag v
      | .error flaw => throw (.value flaw path mark)
    | .list tag items mark =>
      match depth with
      | 0 => throw (.tooDeep mark)
      | depth + 1 =>
        let items ← items.zipIdx.mapM fun (t, i) => read d depth (path.item i) t
        return underTag tag (list items)
    | .mapping tag entries mark =>
      match depth with
      | 0 => throw (.tooDeep mark)
      | depth + 1 =>
        return underTag tag (mapping (← readEntries (read d depth) path mark [] entries))

/-- The depth to which collections may be nested. -/
def maxDepth : Nat := 128

/-- The value of the only document of the text that `bs` encodes. -/
def parse (bs : Bytes) : Except Fault Value := readDocument (fun d t => read d maxDepth .root t) bs

/-- The value of the text `k` as a key, if this is a mapping that has it, tagged or not. -/
def member? (k : String) : Value → Option Value
  | mapping entries | tagged _ (mapping entries) =>
    entries.findSome? fun e =>
      match e with
      | (string s, v) => if s = k then some v else none
      | _ => none
  | _ => none

end Value

end SecretMount.Yaml
