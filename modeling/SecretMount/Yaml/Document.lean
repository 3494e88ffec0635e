import SecretMount.Yaml.Event
import SecretMount.Yaml.Source

/-!
# YAML documents

* `Yaml.Tree` : a node with all that is in it. Aliases are references to numbers, and where a
  document breaks off there is a hole;
* `Tree.ofEvents` : the node that events start with;
* `Yaml.Document` : the root, and for each number the node that it stands for. Of several nodes with
  one number that is the one that starts last;
* `Document.read` : the first document of a text;
* `Document.follow` : the node that an alias stands for. Aliases may be followed a hundred times as
  often as the document has events;
* `Yaml.readDocument` : what can be found in the only document of a text.
-/

namespace SecretMount.Yaml

inductive Tree where
  | hole
  | reference (number : Nat)
  | scalar (s : Scalar) (mark : Mark)
  | list (tag : Option Bytes) (items : List Tree) (mark : Mark)
  | mapping (tag : Option Bytes) (entries : List (Tree × Tree)) (mark : Mark)

/-! ## Nodes of events -/

/-- A collection whose end is not reached, with what is in it so far, the newest first. -/
inductive OpenTree where
  | list (tag : Option Bytes) (items : List Tree) (mark : Mark)
  /-- A key may still be without its value. -/
  | mapping (tag : Option Bytes) (entries : List (Tree × Tree)) (key : Option Tree) (mark : Mark)

namespace OpenTree

/-- The collection with `t` as its next node. -/
def add (t : Tree) : OpenTree → OpenTree
  | list tag items mark => list tag (t :: items) mark
  | mapping tag entries none mark => mapping tag entries (some t) mark
  | mapping tag entries (some k) mark => mapping tag ((k, t) :: entries) none mark

/-- The collection that ends here. A key without a value has a hole. -/
def close : OpenTree → Tree
  | list tag items mark => .list tag items.reverse mark
  | mapping tag entries none mark => .mapping tag entries.reverse mark
  | mapping tag entries (some k) mark => .mapping tag ((k, Tree.hole) :: entries).reverse mark

end OpenTree

/-- The outermost of the collections `around`, the innermost of which breaks off. -/
def Tree.breakOff (around : List OpenTree) : Tree :=
  around.foldl (fun t o => (o.add t).close) .hole

/-- The node that is complete with the first of the events that ends the last collection of
`around`. -/
def Tree.within : List OpenTree → List Event → Tree
  | around, [] => breakOff around
  | around, .listStart _ tag mark :: r => within (.list tag [] mark :: around) r
  | around, .mappingStart _ tag mark :: r => within (.mapping tag [] none mark :: around) r
  | [], .reference n :: _ => .reference n
  | o :: around, .reference n :: r => within (o.add (.reference n) :: around) r
  | [], .scalar _ s mark :: _ => .scalar s mark
  | o :: around, .scalar _ s mark :: r => within (o.add (.scalar s mark) :: around) r
  | o :: outer :: around, .listEnd :: r | o :: outer :: around, .mappingEnd :: r =>
    within (outer.add o.close :: around) r
  | around, .listEnd :: _ | around, .mappingEnd :: _ => (around.head?.map OpenTree.close).getD .hole

/-- The node that `events` start with. -/
def Tree.ofEvents (events : List Event) : Tree := within [] events

/-! ## Documents -/

def Event.anchor? : Event → Option Nat
  | scalar anchor _ _ | listStart anchor _ _ | mappingStart anchor _ _ => anchor
  | _ => none

/-- The nodes that have a number, the one that starts last in front. -/
abbrev Targets := List (Nat × Tree)

/-- The nodes in `events` that have a number, in front of `targets`. -/
def Targets.ofEvents (targets : Targets) : List Event → Targets
  | [] => targets
  | e :: r =>
    ofEvents ((e.anchor?.map fun n => (n, Tree.ofEvents (e :: r))).toList ++ targets) r

structure Document where
  root : Tree
  targets : Targets
  /-- How often aliases may be followed. -/
  maxFollowed : Nat
  /-- Why the document breaks off, if it does. -/
  fault : Option Fault
  /-- Whether it is the only document of its text. -/
  alone : Bool

namespace Document

/-- The document of a text without one. -/
def empty : Document := ⟨.scalar (.absent none) .origin, [], 100, none, true⟩

def ofEvents (events : List Event) (fault : Option Fault) (alone : Bool) : Document :=
  ⟨Tree.ofEvents events, Targets.ofEvents [] events, 100 * events.length, fault, alone⟩

/-- Whether nothing is left to `p` but ends of documents. What is wrong counts as something. -/
def endsText (fuel : Nat) (p : Parser) : Bool :=
  match (Parser.hasMore fuel).run p with
  | .ok more _ => !more
  | .error _ _ => false

/-- The first document of the text that `bs` encodes. -/
def read (bs : Bytes) : Except Fault Document := do
  let source := Source.read bs
  let fuel := 16 * source.text.length + 16
  match (Parser.document fuel).run ⟨.start source.text source.cut, [], []⟩ with
  | .error fault p => return ofEvents p.events.reverse (some fault) true
  | .ok () p =>
    if p.events.isEmpty then return empty
    else return ofEvents p.events.reverse none (endsText fuel p)

end Document

/-! ## Reading -/

/-- What can be found in a document, with the count of aliases followed. -/
abbrev Reading := StateT Nat (Except Fault)

/-- What is there, or nothing that fits. -/
def Reading.ofOption {α : Type} : Option α → Reading α
  | some a => pure a
  | none => throw .unfit

/-- The node that `t` is or stands for. -/
def Document.follow (d : Document) : Tree → Reading Tree
  | .hole => throw (d.fault.getD .unfit)
  | .reference n => do
    let followed ← get
    if followed < d.maxFollowed then
      set (followed + 1)
      Reading.ofOption (d.targets.lookup n)
    else throw .tooManyAliases
  | t => pure t

/-- What `read` finds in the only document of the text that `bs` encodes. What is wrong about a
value is found before what is wrong about the form of the text behind it. -/
def readDocument {α : Type} (read : Document → Tree → Reading α) (bs : Bytes) : Except Fault α := do
  let d ← Document.read bs
  let a ← (read d d.root).run' 0
  match d.fault with
  | some fault => throw fault
  | none => if d.alone then return a else throw .severalDocuments

end SecretMount.Yaml
