/-!
# Faults of YAML texts

* `Yaml.Mark` : a place in a text, as lines and columns from zero on;
* `Yaml.Flaw` : what can be wrong about the form of a text;
* `Yaml.Activity` : what was being read when it was found;
* `Yaml.Path` : the place of a value in its document;
* `Yaml.Fault` : why a text has no value, and `Fault.message` what is reported.
-/

namespace SecretMount.Yaml

structure Mark where
  line : Nat
  column : Nat
deriving DecidableEq, Repr

namespace Mark

/-- The start of a text, which is never reported. -/
def origin : Mark := ⟨0, 0⟩

def text (m : Mark) : String := s!" at line {m.line + 1} column {m.column + 1}"

/-- The text of a mark, unless that is the start of the text. -/
def textBeyondOrigin (m : Mark) : String := if m = origin then "" else m.text

end Mark

/-! ## The bytes of a text -/

inductive ByteFlaw where
  | leading
  | incomplete
  | trailing
  | length
  | notUnicode
  | control
deriving DecidableEq, Repr

def ByteFlaw.message : ByteFlaw → String
  | leading => "invalid leading UTF-8 octet"
  | incomplete => "incomplete UTF-8 octet sequence"
  | trailing => "invalid trailing UTF-8 octet"
  | length => "invalid length of a UTF-8 sequence"
  | notUnicode => "invalid Unicode character"
  | control => "control characters are not allowed"

/-! ## The form of a text -/

inductive Flaw where
  | noToken
  | noColon
  | itemNotAllowed
  | keyNotAllowed
  | valueNotAllowed
  | noDirectiveName
  | directiveNameEnd
  | unknownDirective
  | noLineEnd
  | noVersionPart
  | longVersion
  | noVersion
  | noSpace
  | noSpaceOrLineEnd
  | noName
  | noBang
  | noTag
  | noAngle
  | noByte
  | leadingByte
  | trailingByte
  | zeroIndent
  | tabInBlock
  | documentMark
  | endOfText
  | unknownEscape
  | noHexDigit
  | notUnicode
  | colon
  | tabInIndent
  | noDocumentStart
  | secondVersion
  | wrongVersion
  | secondHandle
  | unknownHandle
  | noNode
  | noItem
  | noKey
  | noCommaOrBracket
  | noCommaOrBrace
deriving DecidableEq, Repr

def Flaw.message : Flaw → String
  | noToken => "found character that cannot start any token"
  | noColon => "could not find expected ':'"
  | itemNotAllowed => "block sequence entries are not allowed in this context"
  | keyNotAllowed => "mapping keys are not allowed in this context"
  | valueNotAllowed => "mapping values are not allowed in this context"
  | noDirectiveName => "could not find expected directive name"
  | directiveNameEnd => "found unexpected non-alphabetical character"
  | unknownDirective => "found unknown directive name"
  | noLineEnd => "did not find expected comment or line break"
  | noVersionPart => "did not find expected digit or '.' character"
  | longVersion => "found extremely long version number"
  | noVersion => "did not find expected version number"
  | noSpace => "did not find expected whitespace"
  | noSpaceOrLineEnd => "did not find expected whitespace or line break"
  | noName => "did not find expected alphabetic or numeric character"
  | noBang => "did not find expected '!'"
  | noTag => "did not find expected tag URI"
  | noAngle => "did not find the expected '>'"
  | noByte => "did not find URI escaped octet"
  | leadingByte => "found an incorrect leading UTF-8 octet"
  | trailingByte => "found an incorrect trailing UTF-8 octet"
  | zeroIndent => "found an indentation indicator equal to 0"
  | tabInBlock => "found a tab character where an indentation space is expected"
  | documentMark => "found unexpected document indicator"
  | endOfText => "found unexpected end of stream"
  | unknownEscape => "found unknown escape character"
  | noHexDigit => "did not find expected hexadecimal number"
  | notUnicode => "found invalid Unicode character escape code"
  | colon => "found unexpected ':'"
  | tabInIndent => "found a tab character that violates indentation"
  | noDocumentStart => "did not find expected <document start>"
  | secondVersion => "found duplicate %YAML directive"
  | wrongVersion => "found incompatible YAML document"
  | secondHandle => "found duplicate %TAG directive"
  | unknownHandle => "found undefined tag handle"
  | noNode => "did not find expected node content"
  | noItem => "did not find expected '-' indicator"
  | noKey => "did not find expected key"
  | noCommaOrBracket => "did not find expected ',' or ']'"
  | noCommaOrBrace => "did not find expected ',' or '\x7d'"

inductive Activity where
  | nextToken
  | simpleKey
  | directive
  | versionDirective
  | tagDirective
  | tagDirectiveHandle
  | tagDirectiveHandleEnd
  | tagDirectiveText
  | anchor
  | reference
  | tag
  | tagText
  | blockScalar
  | quoted
  | escape
  | plain
  | node
  | blockNode
  | flowNode
  | blockCollection
  | blockMapping
  | flowSequence
  | flowMapping
deriving DecidableEq, Repr

def Activity.message : Activity → String
  | nextToken => "while scanning for the next token"
  | simpleKey => "while scanning a simple key"
  | directive => "while scanning a directive"
  | versionDirective => "while scanning a %YAML directive"
  | tagDirective => "while scanning a %TAG directive"
  | tagDirectiveHandle => "while scanning a tag directive"
  | tagDirectiveHandleEnd => "while parsing a tag directive"
  | tagDirectiveText => "while parsing a %TAG directive"
  | anchor => "while scanning an anchor"
  | reference => "while scanning an alias"
  | tag => "while scanning a tag"
  | tagText => "while parsing a tag"
  | blockScalar => "while scanning a block scalar"
  | quoted => "while scanning a quoted scalar"
  | escape => "while parsing a quoted scalar"
  | plain => "while scanning a plain scalar"
  | node => "while parsing a node"
  | blockNode => "while parsing a block node"
  | flowNode => "while parsing a flow node"
  | blockCollection => "while parsing a block collection"
  | blockMapping => "while parsing a block mapping"
  | flowSequence => "while parsing a flow sequence"
  | flowMapping => "while parsing a flow mapping"

/-! ## The values of a text -/

/-- The way from the root of a document to a value. -/
inductive Path where
  | root
  | item (parent : Path) (index : Nat)
  /-- The key is only told if it is a scalar and no alias. -/
  | value (parent : Path) (key : Option String)
deriving DecidableEq, Repr

namespace Path

def text : Path → String
  | root => "."
  | item parent index => s!"{parent.text}[{index}]"
  | value root key => key.getD "?"
  | value parent key => parent.text ++ "." ++ key.getD "?"

/-- What stands in front of a message about the value at a path. -/
def lead (p : Path) : String := if p.text = "." then "" else p.text ++ ": "

end Path

inductive ValueFlaw where
  /-- Two keys of a mapping are the same. -/
  | repeatedKey (description : String)
  /-- An integer has more than 64 bits. -/
  | wideInteger (i : Int)
  /-- A scalar is not what its tag says. -/
  | notTagged (text kind : String)
deriving DecidableEq, Repr

def ValueFlaw.message : ValueFlaw → String
  | repeatedKey description => "duplicate entry " ++ description
  | wideInteger i =>
    let kind := if i < 0 then "i128" else "u128"
    s!"invalid type: integer \x60{i}\x60 as {kind}, expected any YAML value"
  | notTagged text kind => s!"invalid value: string {text}, expected {kind}"

/-! ## Faults -/

inductive Fault where
  | bytes (flaw : ByteFlaw) (offset : Nat)
  /-- What was being read is told with the place where it starts. -/
  | form (flaw : Flaw) (mark : Mark) (activity : Option (Activity × Mark))
  | value (flaw : ValueFlaw) (path : Path) (mark : Mark)
  | unknownAnchor (mark : Mark)
  | tooDeep (mark : Mark)
  | tooManyAliases
  | severalDocuments
  /-- A value is not of the kind that is read. -/
  | unfit
  /-- The fault is not to be told. -/
  | withheld
deriving DecidableEq, Repr

namespace Fault

/-- What was being read, and where that starts unless the fault is there too. -/
def activityText (mark : Mark) : Option (Activity × Mark) → String
  | none => ""
  | some (a, start) =>
    ", " ++ a.message ++ if start = mark then "" else start.textBeyondOrigin

def message : Fault → String
  | bytes flaw offset => flaw.message ++ if offset = 0 then "" else s!" at position {offset}"
  | form flaw mark activity => flaw.message ++ mark.textBeyondOrigin ++ activityText mark activity
  | value flaw path mark => path.lead ++ flaw.message ++ mark.textBeyondOrigin
  | unknownAnchor mark => "unknown anchor" ++ mark.textBeyondOrigin
  | tooDeep mark => "recursion limit exceeded" ++ mark.textBeyondOrigin
  | tooManyAliases => "repetition limit exceeded"
  | severalDocuments =>
    "deserializing from YAML containing more than one document is not supported"
  | unfit => "unexpected value"
  | withheld => "<yaml error>"

end Fault

end SecretMount.Yaml
