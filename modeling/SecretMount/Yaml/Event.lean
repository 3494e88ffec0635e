import SecretMount.Yaml.Lexer

/-!
# Events of YAML documents

* `Yaml.Scalar`, `Yaml.Event` : what a document is made of, in its order: scalars and aliases, and
  the starts and ends of lists and mappings. Nodes that are left out are empty plain scalars;
* `Yaml.Parser` : how far a text is read, with the events so far. A fault leaves what is before it;
* `Parser.assign`, `Parser.resolve` : the numbers of anchors and aliases. An anchor gets the number
  of different names before it, so a number may be given twice when a name is used again;
* `Parser.document` : reads the first document of a text, and `Parser.hasMore` tells whether
  anything follows it.
-/

namespace SecretMount.Yaml

structure Scalar where
  tag : Option Bytes
  text : String
  style : Style
deriving DecidableEq, Repr

/-- The scalar that stands where a node is left out. -/
def Scalar.absent (tag : Option Bytes) : Scalar := ⟨tag, "", .plain⟩

inductive Event where
  | reference (number : Nat)
  | scalar (anchor : Option Nat) (s : Scalar) (mark : Mark)
  | listStart (anchor : Option Nat) (tag : Option Bytes) (mark : Mark)
  | listEnd
  | mappingStart (anchor : Option Nat) (tag : Option Bytes) (mark : Mark)
  | mappingEnd
deriving DecidableEq, Repr

structure Parser where
  lexer : Lexer
  /-- The events so far, the newest first. -/
  events : List Event
  /-- The last number of each name that an anchor had so far. -/
  names : List (String × Nat)

abbrev Parsing := EStateM Fault Parser

namespace Parser

/-- The next token. -/
def peek : Parsing Placed := do
  let s ← get
  match s.lexer.peek with
  | .ok (t, lexer) =>
    set { s with lexer }
    return t
  | .error f => throw f

/-- Passes over the next token. -/
def advance : Parsing Unit := modify fun s => { s with lexer := s.lexer.advance }

def emit (e : Event) : Parsing Unit := modify fun s => { s with events := e :: s.events }

/-- The text has a flaw at `t`, found during an activity that started at `start`. -/
def fail {α : Type} (t : Placed) (flaw : Flaw) (activity : Activity) (start : Mark) : Parsing α :=
  throw (.form flaw t.mark (some (activity, start)))

/-- A node that is left out in front of `t`. -/
def emitAbsent (t : Placed) : Parsing Unit := emit (.scalar none (Scalar.absent none) t.mark)

/-! ## Anchors -/

/-- The number of an anchor called `name` here. -/
def assign (name : String) : Parsing Nat := do
  let s ← get
  let n := s.names.length
  set { s with names := (name, n) :: s.names.filter (·.1 != name) }
  return n

/-- The number that an alias called `name` at `mark` stands for. -/
def resolve (name : String) (mark : Mark) : Parsing Nat := do
  match (← get).names.lookup name with
  | some n => return n
  | none => throw (.unknownAnchor mark)

/-! ## Properties -/

/-- What the handles of tags stand for. -/
abbrev Handles := List (String × Bytes)

/-- The two handles that every document knows. A directive may give them another meaning. -/
def commonHandles : Handles :=
  [("!", Text.encode "!"), ("!!", Text.encode "tag:yaml.org,2002:")]

/-- The anchor and the tag of a node. The tag is still to be looked up. -/
structure Properties where
  anchor : Option String
  tag : Option (Option String × Bytes × Mark)

def readAnchor : Parsing (Option String) := do
  let t ← peek
  match t.token with
  | .anchor name =>
    advance
    return some name
  | _ => return none

def readTag : Parsing (Option (Option String × Bytes × Mark)) := do
  let t ← peek
  match t.token with
  | .tag handle suffix =>
    advance
    return some (handle, suffix, t.mark)
  | _ => return none

/-- An anchor and a tag in any order, or one of them, or none. -/
def readProperties : Parsing Properties := do
  let first ← readAnchor
  let tag ← readTag
  let anchor ← if first.isNone && tag.isSome then readAnchor else pure first
  return ⟨anchor, tag⟩

/-- The tag that the properties of a node at `start` tell. -/
def fullTag (handles : Handles) (start : Mark) :
    Option (Option String × Bytes × Mark) → Parsing (Option Bytes)
  | none => return none
  | some (none, suffix, _) => return some suffix
  | some (some handle, suffix, mark) =>
    match handles.lookup handle with
    | some text => return some (text ++ suffix)
    | none => throw (.form .unknownHandle mark (some (.node, start)))

/-! ## Nodes -/

/-- The place of a node: whether it stands outside of brackets and braces, and whether the items of
a list may follow without a block of their own. -/
structure Place where
  inBlock : Bool
  bareItems : Bool

mutual

/-- Reads the node at the next token. -/
def node (handles : Handles) : Nat → Place → Parsing Unit
  | 0, _ => do
    let t ← peek
    fail t .noNode .blockNode t.mark
  | fuel + 1, place => do
    let first ← peek
    match first.token with
    | .reference name =>
      advance
      emit (.reference (← resolve name first.mark))
    | _ =>
      let p ← readProperties
      let t ← peek
      let tag ← fullTag handles first.mark p.tag
      let anchor ← p.anchor.mapM assign
      let list : Parsing Unit := emit (.listStart anchor tag first.mark)
      let mapping : Parsing Unit := emit (.mappingStart anchor tag first.mark)
      let absent : Parsing Unit :=
        if anchor.isSome || tag.isSome then
          emit (.scalar anchor (Scalar.absent tag) first.mark)
        else fail t .noNode (if place.inBlock then .blockNode else .flowNode) first.mark
      match t.token, place.inBlock, place.bareItems with
      | .blockEntry, _, true =>
        list
        bareItems handles fuel
      | .scalar text style, _, _ =>
        advance
        emit (.scalar anchor ⟨tag, text, style⟩ first.mark)
      | .flowSequence, _, _ =>
        advance
        list
        flowItems handles t.mark fuel true
      | .flowMapping, _, _ =>
        advance
        mapping
        flowEntries handles t.mark fuel true
      | .blockSequence, true, _ =>
        advance
        list
        blockItems handles t.mark fuel
      | .blockMapping, true, _ =>
        advance
        mapping
        blockEntries handles t.mark fuel
      | _, _, _ => absent

/-- Reads a node, which is left out before some tokens. -/
def nodeBefore (handles : Handles) : Nat → Place → List Token → Parsing Unit
  | 0, _, _ => do
    let t ← peek
    fail t .noNode .blockNode t.mark
  | fuel + 1, place, before => do
    let t ← peek
    if before.contains t.token then emitAbsent t else node handles fuel place

/-- Reads the items of a block that starts at `start`, and its end. -/
def blockItems (handles : Handles) (start : Mark) : Nat → Parsing Unit
  | 0 => return
  | fuel + 1 => do
    let t ← peek
    match t.token with
    | .blockEntry =>
      advance
      nodeBefore handles fuel ⟨true, false⟩ [.blockEntry, .blockEnd]
      blockItems handles start fuel
    | .blockEnd =>
      advance
      emit .listEnd
    | _ => fail t .noItem .blockCollection start

/-- Reads items without a block of their own. -/
def bareItems (handles : Handles) : Nat → Parsing Unit
  | 0 => return
  | fuel + 1 => do
    let t ← peek
    match t.token with
    | .blockEntry =>
      advance
      nodeBefore handles fuel ⟨true, false⟩ [.blockEntry, .key, .value, .blockEnd]
      bareItems handles fuel
    | _ => emit .listEnd

/-- Reads the entries of a block that starts at `start`, and its end. -/
def blockEntries (handles : Handles) (start : Mark) : Nat → Parsing Unit
  | 0 => return
  | fuel + 1 => do
    let t ← peek
    match t.token with
    | .key =>
      advance
      nodeBefore handles fuel ⟨true, true⟩ [.key, .value, .blockEnd]
      let v ← peek
      if v.token = .value then
        advance
        nodeBefore handles fuel ⟨true, true⟩ [.key, .value, .blockEnd]
      else emitAbsent v
      blockEntries handles start fuel
    | .blockEnd =>
      advance
      emit .mappingEnd
    | _ => fail t .noKey .blockMapping start

/-- Reads the items within brackets that open at `start`, and the closing bracket. -/
def flowItems (handles : Handles) (start : Mark) : Nat → Bool → Parsing Unit
  | 0, _ => return
  | fuel + 1, first => do
    let t ← peek
    if t.token = .flowSequenceEnd then
      advance
      emit .listEnd
    else
      if !first then
        if t.token = .flowEntry then advance else fail t .noCommaOrBracket .flowSequence start
      let t ← peek
      if t.token = .flowSequenceEnd then
        advance
        emit .listEnd
      else
        flowItem handles fuel
        flowItems handles start fuel false

/-- Reads an item within brackets. One that starts like an entry of a mapping is a mapping of one
entry: if its key is left out, the token in place of the key is passed over. -/
def flowItem (handles : Handles) : Nat → Parsing Unit
  | 0 => return
  | fuel + 1 => do
    let t ← peek
    if t.token = .key then
      emit (.mappingStart none none t.mark)
      advance
      let k ← peek
      if [Token.value, .flowEntry, .flowSequenceEnd].contains k.token then
        advance
        emitAbsent k
      else node handles fuel ⟨false, false⟩
      flowValue handles fuel [.flowEntry, .flowSequenceEnd]
      emit .mappingEnd
    else node handles fuel ⟨false, false⟩

/-- Reads the value of an entry within brackets or braces, which is left out before some tokens. -/
def flowValue (handles : Handles) : Nat → List Token → Parsing Unit
  | 0, _ => return
  | fuel + 1, before => do
    let t ← peek
    if t.token = .value then
      advance
      nodeBefore handles fuel ⟨false, false⟩ before
    else emitAbsent t

/-- Reads the entries within braces that open at `start`, and the closing brace. -/
def flowEntries (handles : Handles) (start : Mark) : Nat → Bool → Parsing Unit
  | 0, _ => return
  | fuel + 1, first => do
    let t ← peek
    if t.token = .flowMappingEnd then
      advance
      emit .mappingEnd
    else
      if !first then
        if t.token = .flowEntry then advance else fail t .noCommaOrBrace .flowMapping start
      let t ← peek
      if t.token = .flowMappingEnd then
        advance
        emit .mappingEnd
      else
        flowEntry handles fuel
        flowEntries handles start fuel false

/-- Reads an entry within braces. Without an indicator it is a key alone. -/
def flowEntry (handles : Handles) : Nat → Parsing Unit
  | 0 => return
  | fuel + 1 => do
    let t ← peek
    if t.token = .key then
      advance
      nodeBefore handles fuel ⟨false, false⟩ [.value, .flowEntry, .flowMappingEnd]
      flowValue handles fuel [.flowEntry, .flowMappingEnd]
    else
      node handles fuel ⟨false, false⟩
      emitAbsent (← peek)

end

/-! ## Documents -/

/-- Reads the directives of a document. There is at most one for the version, which is 1.1 or 1.2,
and one for each handle. -/
def directives : Nat → Bool → Handles → Parsing Handles
  | 0, _, handles => return handles
  | fuel + 1, versioned, handles => do
    let t ← peek
    match t.token with
    | .directive (.version major minor) =>
      if versioned then throw (.form .secondVersion t.mark none)
      else if major != 1 || !(minor == 1 || minor == 2) then
        throw (.form .wrongVersion t.mark none)
      else
        advance
        directives fuel true handles
    | .directive (.tag handle text) =>
      if (handles.lookup handle).isSome then throw (.form .secondHandle t.mark none)
      else
        advance
        directives fuel versioned ((handle, text) :: handles)
    | _ => return handles

/-- Reads a document with an explicit start. -/
def explicitDocument (fuel : Nat) : Parsing Unit := do
  let handles ← directives fuel false []
  let t ← peek
  if t.token ≠ .documentStart then throw (.form .noDocumentStart t.mark none)
  advance
  let t ← peek
  match t.token with
  | .directive _ | .documentStart | .documentEnd | .streamEnd => emitAbsent t
  | _ => node (handles ++ commonHandles) fuel ⟨true, false⟩

/-- Reads the end of a document, which may be left out. -/
def documentEnd : Parsing Unit := do
  let t ← peek
  if t.token = .documentEnd then advance

/-- Reads the first document. A text that has none has no events. -/
def document (fuel : Nat) : Parsing Unit := do
  let t ← peek
  match t.token with
  | .streamEnd => return
  | .directive _ | .documentStart =>
    explicitDocument fuel
    documentEnd
  | _ =>
    node commonHandles fuel ⟨true, false⟩
    documentEnd

/-- Whether anything but ends of documents is left. -/
def hasMore : Nat → Parsing Bool
  | 0 => return true
  | fuel + 1 => do
    let t ← peek
    match t.token with
    | .documentEnd =>
      advance
      hasMore fuel
    | .streamEnd => return false
    | _ => return true

end Parser

end SecretMount.Yaml
