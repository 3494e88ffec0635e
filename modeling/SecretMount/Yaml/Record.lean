import SecretMount.Yaml.Document
import SecretMount.Yaml.Schema

/-!
# Records in YAML documents

What a document says where the kind of each value is known beforehand. A scalar that is expected to
be a text is one, however it is written.

* `Document.text`, `Document.bool`, `Document.int`, `Document.nat` : scalars;
* `Document.items`, `Document.fields` : the items of a list, the values of a mapping by their keys.
  What is left out is empty;
* `Document.required`, `Document.optional` : the value of a key that must or may be there.
-/

namespace SecretMount.Yaml.Document

variable (d : Document)

def scalar (t : Tree) : Reading Scalar := do
  match ← d.follow t with
  | .scalar s _ => return s
  | _ => throw .unfit

def text (t : Tree) : Reading String := do
  let s ← d.scalar t
  return s.text

def bool (t : Tree) : Reading Bool := do
  let s ← d.scalar t
  if Schema.mayBe "bool" s then Reading.ofOption (Schema.bool? s.text) else throw .unfit

/-- An integer of 64 bits. -/
def int (t : Tree) : Reading Int := do
  let s ← d.scalar t
  if Schema.mayBe "int" s then Reading.ofOption (Schema.int? 64 s.text.toList) else throw .unfit

/-- An integer of 64 bits without a minus sign. -/
def nat (t : Tree) : Reading Nat := do
  let s ← d.scalar t
  if Schema.mayBe "int" s then Reading.ofOption (Schema.nat? 64 s.text.toList) else throw .unfit

/-- Whether a scalar stands for nothing. -/
def isAbsent? (s : Scalar) : Option Bool :=
  if s.style ≠ .plain then some false
  else match s.tag with
    | none => some (s.text.isEmpty || Schema.isNull s.text)
    | some tag =>
      if tag = Schema.coreTag "null" then if Schema.isNull s.text then some true else none
      else some false

/-- The node that `t` is or stands for, unless that is null. -/
def present (t : Tree) : Reading (Option Tree) := do
  match ← d.follow t with
  | .scalar s mark =>
    let absent ← Reading.ofOption (isAbsent? s)
    return if absent then none else some (.scalar s mark)
  | t => return some t

/-- Whether a node is left out. -/
def isEmpty (s : Scalar) : Bool := s.style = .plain && s.text.isEmpty

def items (t : Tree) : Reading (List Tree) := do
  match ← d.follow t with
  | .list _ items _ => return items
  | .scalar s _ => if isEmpty s then return [] else throw .unfit
  | _ => throw .unfit

/-- The values of the keys `names`, none of which may stand twice. -/
def fields (names : List String) (t : Tree) : Reading (String → Option Tree) := do
  match ← d.follow t with
  | .mapping _ entries _ =>
    let keys ← entries.mapM fun e => d.text e.1
    if names.any fun k => 2 ≤ keys.count k then throw .unfit
    else
      let values := keys.zip (entries.map Prod.snd)
      return fun k => if names.contains k then values.lookup k else none
  | .scalar s _ => if isEmpty s then return fun _ => none else throw .unfit
  | _ => throw .unfit

/-- What `read` finds in the value of a key. -/
def required {α : Type} (read : Tree → Reading α) : Option Tree → Reading α
  | none => throw .unfit
  | some t => read t

/-- What `read` finds in the value of a key, unless that is null or left out. -/
def optional {α : Type} (read : Tree → Reading α) : Option Tree → Reading (Option α)
  | none => return none
  | some t => do
    match ← d.present t with
    | none => return none
    | some t => return some (← read t)

end SecretMount.Yaml.Document
