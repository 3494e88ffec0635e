import SecretMount.Text.Numeral
import SecretMount.Text.Utf8
import SecretMount.Yaml.Cursor

/-!
# Tokens of YAML texts

* `Yaml.Style` : how a scalar is written;
* `Yaml.Token` : the parts of a text. Indentation has become tokens for the start and the end of a
  block;
* `Yaml.Placed` : a token with the place where it starts;
* `Anchor.read`, `Tag.read`, `Directive.read` : tokens that follow an indicator.
-/

namespace SecretMount.Yaml

inductive Style where
  | plain
  | single
  | double
  | literal
  | folded
deriving DecidableEq, Repr

/-- A document starts with directives for the version and for the handles of tags. -/
inductive Directive where
  | version (major minor : Nat)
  | tag (handle : String) (start : Bytes)
deriving DecidableEq, Repr

inductive Token where
  | directive (d : Directive)
  | documentStart
  | documentEnd
  | streamEnd
  | blockSequence
  | blockMapping
  | blockEnd
  | flowSequence
  | flowSequenceEnd
  | flowMapping
  | flowMappingEnd
  | blockEntry
  | flowEntry
  | key
  | value
  | reference (name : String)
  | anchor (name : String)
  /-- A verbatim tag has no handle. -/
  | tag (handle : Option String) (suffix : Bytes)
  | scalar (text : String) (style : Style)
deriving DecidableEq, Repr

structure Placed where
  token : Token
  mark : Mark
deriving DecidableEq, Repr

/-! ## Anchors -/

/-- The name behind the indicator of an anchor or an alias. -/
def Anchor.read (activity : Activity) (c : Cursor) : Except Fault (String × Cursor) := do
  let start := c.mark
  let (name, c) ← c.skip.takeWhile isWordChar
  let ends := endsWord c.rest || c.seesAny "?:,]\x7d%@\x60".toList.contains
  if name.isEmpty || !ends then c.fail .noName activity start
  else return (String.ofList name, c)

/-! ## Tags -/

namespace Tag

/-- The characters of a tag, where `verbatim` allows three more. -/
def isTagChar (verbatim : Bool) (c : Char) : Bool :=
  isWordChar c || ";/?:@&=+$.!~*'()%".toList.contains c ||
    (verbatim && (c == ',' || c == '[' || c == ']'))

/-- A byte written as a percent sign and two digits. -/
def readByte (activity : Activity) (start : Mark) (c : Cursor) : Except Fault (Nat × Cursor) := do
  c.need 3
  let byte? := match c.rest with
    | '%' :: a :: b :: _ => Numeral.ofRadix? 16 [a, b]
    | _ => none
  match byte? with
  | some n => return (n, c.skipMany 3)
  | none => c.fail .noByte activity start

/-- `count` bytes that continue a sequence. -/
def readTail (activity : Activity) (start : Mark) : Nat → Cursor → Except Fault (Bytes × Cursor)
  | 0, c => .ok ([], c)
  | count + 1, c => do
    let (n, next) ← readByte activity start c
    if n / 64 ≠ 2 then c.fail .trailingByte activity start
    else do
      let (bytes, next) ← readTail activity start count next
      return (UInt8.ofNat n :: bytes, next)

/-- The number of bytes that continue a sequence which starts with `n`. -/
def tailLength? (n : Nat) : Option Nat :=
  if n < 0x80 then some 0
  else if n / 32 = 6 then some 1
  else if n / 16 = 14 then some 2
  else if n / 8 = 30 then some 3
  else none

/-- The bytes of one character. -/
def readEscape (activity : Activity) (start : Mark) (c : Cursor) :
    Except Fault (Bytes × Cursor) := do
  let (n, next) ← readByte activity start c
  match tailLength? n with
  | none => c.fail .leadingByte activity start
  | some count =>
    let (bytes, next) ← readTail activity start count next
    return (UInt8.ofNat n :: bytes, next)

/-- The bytes of the characters at the cursor that may stand in a tag. -/
def readText (verbatim : Bool) (activity : Activity) (start : Mark) : Nat → Cursor →
    Except Fault (Bytes × Cursor)
  | 0, c => .ok ([], c)
  | fuel + 1, c => do
    c.need 1
    match c.rest with
    | [] => return ([], c)
    | a :: _ =>
      if !isTagChar verbatim a then return ([], c)
      else if a = '%' then do
        let (bytes, c) ← readEscape activity start c
        let (more, c) ← readText verbatim activity start fuel c
        return (bytes ++ more, c)
      else do
        let (more, c) ← readText verbatim activity start fuel c.skip
        return (UInt8.ofNat a.toNat :: more, c)

/-- What counts of the bytes of a tag, which end at the first zero. -/
def upToZero (text : Bytes) : Bytes := text.takeWhile (· != 0)

/-- At least one character that may stand in a tag. -/
def readSome (verbatim : Bool) (activity : Activity) (start : Mark) (c : Cursor) :
    Except Fault (Bytes × Cursor) := do
  let (text, c) ← readText verbatim activity start c.fuel c
  if text.isEmpty then c.fail .noTag activity start else return (upToZero text, c)

/-- An exclamation mark, a word and, for most handles, another exclamation mark. -/
def readHandle (activity : Activity) (start : Mark) (c : Cursor) :
    Except Fault (String × Cursor) := do
  c.need 1
  if !c.sees '!' then c.fail .noBang activity start
  else
    let (name, c) ← c.skip.takeWhile isWordChar
    if c.sees '!' then return (String.ofList ('!' :: name ++ ['!']), c.skip)
    else return (String.ofList ('!' :: name), c)

/-- Whether a handle is closed by a second exclamation mark. -/
def isClosed (handle : String) : Bool :=
  handle.length ≥ 2 && handle.toList.getLast? == some '!'

/-- The tag at the cursor in any of its forms: verbatim between angle brackets; a handle closed by
an exclamation mark with a suffix; the primary handle with a suffix; a lone exclamation mark. -/
def readForm (c : Cursor) : Except Fault (Token × Cursor) := do
  let start := c.mark
  c.need 2
  if c.rest.take 2 = ['!', '<'] then do
    let (text, c) ← readSome true .tagText start (c.skipMany 2)
    if c.sees '>' then return (.tag none text, c.skip) else c.fail .noAngle .tag start
  else do
    let (handle, c) ← readHandle .tag start c
    if isClosed handle then do
      let (text, c) ← readSome false .tagText start c
      return (.tag (some handle) text, c)
    else do
      let (text, c) ← readText false .tagText start c.fuel c
      let suffix := Text.encode (String.ofList (handle.toList.drop 1)) ++ upToZero text
      if suffix.isEmpty then return (.tag none (Text.encode "!"), c)
      else return (.tag (some "!") suffix, c)

/-- A tag ends where a word ends, or before a comma within brackets or braces. -/
def read (inFlow : Bool) (c : Cursor) : Except Fault (Token × Cursor) := do
  let start := c.mark
  let (tag, c) ← readForm c
  c.need 1
  if endsWord c.rest || (inFlow && c.sees ',') then return (tag, c)
  else c.fail .noSpaceOrLineEnd .tag start

end Tag

/-! ## Directives -/

namespace Directive

/-- A number of at most nine digits. -/
def readNumber (start : Mark) (c : Cursor) : Except Fault (Nat × Cursor) := do
  if (c.rest.takeWhile Char.isDigit).length > 9 then
    (c.skipMany 9).fail .longVersion .versionDirective start
  else
    let (digits, next) ← c.takeWhile Char.isDigit
    match Numeral.ofRadix? 10 digits with
    | none => c.fail .noVersion .versionDirective start
    | some n => return (n, next)

def readVersion (start : Mark) (c : Cursor) : Except Fault (Directive × Cursor) := do
  let (major, c) ← readNumber start (← c.skipWhile isGap)
  if !c.sees '.' then c.fail .noVersionPart .versionDirective start
  else do
    let (minor, c) ← readNumber start c.skip
    return (version major minor, c)

def readTag (start : Mark) (c : Cursor) : Except Fault (Directive × Cursor) := do
  let (handle, c) ← Tag.readHandle .tagDirectiveHandle start (← c.skipWhile isGap)
  if !(handle == "!" || Tag.isClosed handle) then c.fail .noBang .tagDirectiveHandleEnd start
  else do
    c.need 1
    if !c.seesAny isGap then c.fail .noSpace .tagDirective start
    let (text, c) ← Tag.readSome true .tagDirectiveText start (← c.skipWhile isGap)
    c.need 1
    if endsWord c.rest then return (tag handle text, c)
    else c.fail .noSpaceOrLineEnd .tagDirective start

/-- The directive at the cursor, which takes all of its line. -/
def read (c : Cursor) : Except Fault (Directive × Cursor) := do
  let start := c.mark
  let (name, c) ← c.skip.takeWhile isWordChar
  if name.isEmpty then c.fail .noDirectiveName .directive start
  else if !endsWord c.rest then c.fail .directiveNameEnd .directive start
  else do
    let (d, c) ←
      if name = "YAML".toList then readVersion start c
      else if name = "TAG".toList then readTag start c
      else c.fail .unknownDirective .directive start
    let c ← c.endLine .directive start
    return (d, c)

end Directive

end SecretMount.Yaml
