import SecretMount.Json.Number
import SecretMount.Json.Quoted
import SecretMount.Table

/-!
# JSON values

* `Json` : a document. Members keep their order and may repeat a key;
* `Json.member?` : the value of a key, which is that of its last member;
* `Json.text` : the text of a value, without any white space;
* `Json.sorted` : the same value with one member per key, in the order of the keys.
-/

namespace SecretMount

inductive Json where
  | null
  | bool (b : Bool)
  | number (n : Number)
  | string (s : String)
  | array (items : List Json)
  | object (members : List (String × Json))

namespace Json

/-- The last value of `k`. -/
def lastOf? (k : String) (members : List (String × Json)) : Option Json :=
  members.reverse.lookup k

/-- The value of `k`, if this is an object that has the key. -/
def member? (k : String) : Json → Option Json
  | object members => lastOf? k members
  | _ => none

def string? : Json → Option String
  | string s => some s
  | _ => none

/-- The integer that a number is held as. -/
def int? : Json → Option Int
  | number (.int i) => some i
  | _ => none

def bool? : Json → Option Bool
  | bool b => some b
  | _ => none

/-! ## Writing -/

mutual

/-- The text of a value, with the members of objects as they stand. -/
def text : Json → String
  | null => "null"
  | bool true => "true"
  | bool false => "false"
  | number n => n.text layout
  | string s => quote s
  | array items => "[" ++ String.intercalate "," (itemTexts items) ++ "]"
  | object members => "\x7b" ++ String.intercalate "," (memberTexts members) ++ "\x7d"

def itemTexts : List Json → List String
  | [] => []
  | v :: r => text v :: itemTexts r

def memberTexts : List (String × Json) → List String
  | [] => []
  | (k, v) :: r => (quote k ++ ":" ++ text v) :: memberTexts r

end

mutual

/-- The same value, with the members of objects in the order of their keys and the last member of
each key only. -/
def sorted : Json → Json
  | array items => array (sortedItems items)
  | object members => object (Table.ofList (sortedMembers members)).entries
  | v => v

def sortedItems : List Json → List Json
  | [] => []
  | v :: r => sorted v :: sortedItems r

def sortedMembers : List (String × Json) → List (String × Json)
  | [] => []
  | (k, v) :: r => (k, sorted v) :: sortedMembers r

end

end Json

end SecretMount
