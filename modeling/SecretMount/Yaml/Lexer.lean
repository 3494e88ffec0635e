import SecretMount.Yaml.Scalar.Block
import SecretMount.Yaml.Scalar.Plain
import SecretMount.Yaml.Scalar.Quoted
import SecretMount.Yaml.Token

/-!
# The tokens of a YAML text

* `Yaml.Lexer` : how far a text is read. What could be the key of a mapping is remembered until a
  colon makes it one, and then the tokens for the key, and for the start of the mapping that it
  opens, are put before it;
* `Lexer.peek`, `Lexer.advance` : the next token, and the lexer behind it. No more of the text is
  read than it takes to tell whether the next token is the start of a key.

A key that has no indicator of its own must end on its line and within 1024 characters.
-/

namespace SecretMount.Yaml

/-- What could be a key: the place where it starts, in the text and among the tokens. -/
structure OpenKey where
  /-- The block it stands in has only keys. -/
  required : Bool
  position : Nat
  index : Nat
  mark : Mark

structure Lexer where
  cursor : Cursor
  /-- The tokens that are read but not yet taken. -/
  queue : List Placed
  /-- The number of tokens taken. -/
  taken : Nat
  /-- The columns of the open blocks, the innermost first. -/
  blocks : List Nat
  /-- Whether a key without an indicator may start here. -/
  keyAllowed : Bool
  /-- What could be a key at this level of brackets and braces. -/
  key : Option OpenKey
  /-- The same for the levels around, the innermost first. -/
  outerKeys : List (Option OpenKey)
  /-- Whether the end of the text is read. -/
  ended : Bool

namespace Lexer

def start (text : List Char) (cut : Option Fault) : Lexer :=
  ⟨.start text cut, [], 0, [], true, none, [], false⟩

/-- Whether this is within brackets or braces. -/
def inFlow (s : Lexer) : Bool := !s.outerKeys.isEmpty

/-- The column of the innermost block. -/
def indent (s : Lexer) : Int := (s.blocks.head?.map Int.ofNat).getD (-1)

/-- The number of tokens read. -/
def count (s : Lexer) : Nat := s.taken + s.queue.length

def emit (t : Token) (mark : Mark) (s : Lexer) : Lexer := { s with queue := s.queue ++ [⟨t, mark⟩] }

/-- Puts `t` behind the first `position` tokens. -/
def emitAt (position : Nat) (t : Token) (mark : Mark) (s : Lexer) : Lexer :=
  { s with queue := s.queue.insertIdx (position - s.taken) ⟨t, mark⟩ }

def allowKey (allowed : Bool) (s : Lexer) : Lexer := { s with keyAllowed := allowed }

/-- Puts `t` at the end and passes over its `n` characters. -/
def emitSkip (n : Nat) (t : Token) (s : Lexer) : Lexer :=
  { s.emit t s.cursor.mark with cursor := s.cursor.skipMany n }

/-! ## Blocks -/

/-- Closes the blocks behind `column`. -/
def closeBlocks (column : Int) (s : Lexer) : Lexer :=
  if s.inFlow then s
  else
    let closed := (s.blocks.takeWhile fun b : Nat => column < Int.ofNat b).length
    { s with
      blocks := s.blocks.drop closed
      queue := s.queue ++ List.replicate closed ⟨.blockEnd, s.cursor.mark⟩ }

/-- Opens a block at `mark`, with its token behind the first `position` tokens, unless one is open
there. -/
def openBlock (mark : Mark) (position : Nat) (t : Token) (s : Lexer) : Lexer :=
  if s.inFlow || (mark.column : Int) ≤ s.indent then s
  else { s with blocks := mark.column :: s.blocks }.emitAt position t mark

/-! ## Keys -/

/-- What could be a key is none. -/
def dropKey (s : Lexer) : Except Fault Lexer :=
  match s.key with
  | some k =>
    if k.required then s.cursor.fail .noColon .simpleKey k.mark else .ok { s with key := none }
  | none => .ok s

/-- Remembers that what follows could be a key. -/
def openKey (s : Lexer) : Except Fault Lexer := do
  if s.keyAllowed then
    let c := s.cursor
    let required := !s.inFlow && s.indent == (c.column : Int)
    let s ← s.dropKey
    return { s with key := some ⟨required, s.count, c.index, c.mark⟩ }
  else return s

/-- Whether what starts at `k` is too long for a key when the text is read up to `c`. -/
def isStale (c : Cursor) (k : OpenKey) : Bool :=
  k.mark.line < c.line || k.index + 1024 < c.index

/-- What is left of a key that could start at `k` when the text is read up to `c`. -/
def freshKey (c : Cursor) : Option OpenKey → Except Fault (Option OpenKey)
  | none => .ok none
  | some k =>
    if !isStale c k then .ok (some k)
    else if k.required then c.fail .noColon .simpleKey k.mark
    else .ok none

/-- Drops the keys that are too long, those of the levels around first. -/
def dropStaleKeys (s : Lexer) : Except Fault Lexer := do
  if (s.key :: s.outerKeys).any fun k => (k.map (isStale s.cursor)).getD false then
    let outerKeys ← (s.outerKeys.reverse.mapM (freshKey s.cursor))
    let key ← freshKey s.cursor s.key
    return { s with key, outerKeys := outerKeys.reverse }
  else return s

/-! ## What stands between tokens -/

/-- Passes over gaps, comments and line ends. A tab is no gap where a key may start in a block, and
a byte order mark may start a line. -/
def skipSpace : Nat → Lexer → Except Fault Lexer
  | 0, s => .ok s
  | fuel + 1, s => do
    let c := s.cursor
    let c := if c.column == 0 && c.sees '\ufeff' then c.skip else c
    let tabs := s.inFlow || !s.keyAllowed
    let c ← c.skipWhile fun a => a == ' ' || (tabs && a == '\t')
    let c ← if c.sees '#' then c.skipWhile (!isBreak ·) else pure c
    if c.seesAny isBreak then
      let c ← c.skipBreak
      skipSpace fuel { s with cursor := c, keyAllowed := s.keyAllowed || !s.inFlow }
    else return { s with cursor := c }

/-! ## Tokens -/

/-- Ends everything that is open in front of a document or a directive. -/
def closeAll (s : Lexer) : Except Fault Lexer := do
  let s ← (s.closeBlocks (-1)).dropKey
  return s.allowKey false

def directive (s : Lexer) : Except Fault Lexer := do
  let s ← s.closeAll
  let (d, c) ← Directive.read s.cursor
  return { s.emit (.directive d) s.cursor.mark with cursor := c }

/-- The start or the end of a document. -/
def documentMark (t : Token) (s : Lexer) : Except Fault Lexer := do
  let s ← s.closeAll
  return s.emitSkip 3 t

def flowStart (t : Token) (s : Lexer) : Except Fault Lexer := do
  let s ← s.openKey
  return ({ s with key := none, outerKeys := s.key :: s.outerKeys }.allowKey true).emitSkip 1 t

def flowEnd (t : Token) (s : Lexer) : Except Fault Lexer := do
  let s ← s.dropKey
  let s := match s.outerKeys with
    | [] => s
    | k :: r => { s with key := k, outerKeys := r }
  return (s.allowKey false).emitSkip 1 t

def flowEntry (s : Lexer) : Except Fault Lexer := do
  let s ← s.dropKey
  return (s.allowKey true).emitSkip 1 .flowEntry

/-- Fails unless a block may go on here with a token that has an indicator. -/
def checkAllowed (flaw : Flaw) (s : Lexer) : Except Fault Unit :=
  if !s.inFlow && !s.keyAllowed then .error (.form flaw s.cursor.mark none) else .ok ()

/-- An item or a key by its indicator, which within a block opens one of its own kind. -/
def entry (block t : Token) (flaw : Flaw) (keyAllowed : Bool) (s : Lexer) :
    Except Fault Lexer := do
  s.checkAllowed flaw
  let s ← (s.openBlock s.cursor.mark s.count block).dropKey
  return (s.allowKey keyAllowed).emitSkip 1 t

/-- The value of what could be a key, or else of a key that has an indicator or is missing. -/
def value (s : Lexer) : Except Fault Lexer :=
  match s.key with
  | some k =>
    let s := ({ s with key := none }.emitAt k.position .key k.mark).openBlock k.mark k.position
      .blockMapping
    .ok ((s.allowKey false).emitSkip 1 .value)
  | none => do
    s.checkAllowed .valueNotAllowed
    let s := s.openBlock s.cursor.mark s.count .blockMapping
    return (s.allowKey (!s.inFlow)).emitSkip 1 .value

/-- A token that may start a key. -/
def inKey (read : Cursor → Except Fault (Token × Cursor)) (s : Lexer) : Except Fault Lexer := do
  let s ← s.openKey
  let (t, c) ← read s.cursor
  return { (s.allowKey false).emit t s.cursor.mark with cursor := c }

def quoted (quote : Char) (style : Style) : Lexer → Except Fault Lexer :=
  inKey fun c => do
    let (text, c) ← Quoted.read quote c
    return (.scalar (String.ofList text) style, c)

def anchor : Lexer → Except Fault Lexer :=
  inKey fun c => do
    let (name, c) ← Anchor.read .anchor c
    return (.anchor name, c)

def reference : Lexer → Except Fault Lexer :=
  inKey fun c => do
    let (name, c) ← Anchor.read .reference c
    return (.reference name, c)

def blockScalar (style : Style) (s : Lexer) : Except Fault Lexer := do
  let s ← s.dropKey
  let (text, c) ← Block.read (style = .folded) s.indent s.cursor
  return {
    (s.allowKey true).emit (.scalar (String.ofList text) style) s.cursor.mark with cursor := c }

def plain (s : Lexer) : Except Fault Lexer := do
  let s ← s.openKey
  let (text, c, broken) ← Plain.read s.inFlow (s.indent + 1).toNat s.cursor
  return {
    (s.allowKey broken).emit (.scalar (String.ofList text) .plain) s.cursor.mark with cursor := c }

/-- Reads the token at the cursor, which stands before the character `a` and then `r`. -/
def token (a : Char) (r : List Char) (s : Lexer) : Except Fault Lexer :=
  let c := s.cursor
  let indicates := s.inFlow || endsWord r
  if c.column = 0 ∧ a = '%' then s.directive
  else if c.atMark '-' then s.documentMark .documentStart
  else if c.atMark '.' then s.documentMark .documentEnd
  else if a = '[' then s.flowStart .flowSequence
  else if a = '\x7b' then s.flowStart .flowMapping
  else if a = ']' then s.flowEnd .flowSequenceEnd
  else if a = '\x7d' then s.flowEnd .flowMappingEnd
  else if a = ',' then s.flowEntry
  else if a = '-' ∧ endsWord r then s.entry .blockSequence .blockEntry .itemNotAllowed true
  else if a = '?' ∧ indicates then s.entry .blockMapping .key .keyNotAllowed (!s.inFlow)
  else if a = ':' ∧ indicates then s.value
  else if a = '*' then s.reference
  else if a = '&' then s.anchor
  else if a = '!' then s.inKey (Tag.read s.inFlow)
  else if a = '|' ∧ !s.inFlow then s.blockScalar .literal
  else if a = '>' ∧ !s.inFlow then s.blockScalar .folded
  else if a = '\'' then s.quoted '\'' .single
  else if a = '"' then s.quoted '"' .double
  else if Plain.starts s.inFlow c.rest then s.plain
  else c.fail .noToken .nextToken c.mark

/-- The end of the text, which ends its line. -/
def finish (s : Lexer) : Except Fault Lexer := do
  let s := if s.cursor.column = 0 then s else { s with cursor := s.cursor.newLine 0 [] }
  let s ← s.closeAll
  return { s.emit .streamEnd s.cursor.mark with ended := true }

/-- Reads the next token. -/
def fetch (s : Lexer) : Except Fault Lexer := do
  let s ← s.skipSpace s.cursor.fuel
  let s ← s.dropStaleKeys
  let s := s.closeBlocks s.cursor.column
  s.cursor.need 4
  match s.cursor.rest with
  | [] => s.finish
  | a :: r => s.token a r

/-- Whether the next token could still turn out to be the start of a key. -/
def needsMore (s : Lexer) : Bool :=
  s.queue.isEmpty ||
    (s.key :: s.outerKeys).any fun k => (k.map fun k => k.position == s.taken).getD false

/-- Reads on until the next token is settled. -/
def settle : Nat → Lexer → Except Fault Lexer
  | 0, s => .ok s
  | fuel + 1, s => do
    let s ← if s.queue.isEmpty then pure s else s.dropStaleKeys
    if s.needsMore && !s.ended then
      let s ← s.fetch
      settle fuel s
    else return s

/-- The next token. At the end of the text that is the end, however often it is asked for. -/
def peek (s : Lexer) : Except Fault (Placed × Lexer) := do
  let s ← s.settle s.cursor.fuel
  return (s.queue.head?.getD ⟨.streamEnd, s.cursor.mark⟩, s)

/-- The lexer behind the next token. -/
def advance (s : Lexer) : Lexer := { s with queue := s.queue.drop 1, taken := s.taken + 1 }

end Lexer

end SecretMount.Yaml
