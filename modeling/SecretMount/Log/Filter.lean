import SecretMount.Log.Event
import SecretMount.Number.Decimal
import SecretMount.Pattern.Check
import SecretMount.Refusal
import SecretMount.Text.Alphanumeric
import SecretMount.Text.Blank
import SecretMount.Text.Numeral
import SecretMount.Text.Pieces
import SecretMount.Text.Utf8

/-!
# Log filters

A filter is a list of directives with commas between them. A directive says up to which level events
of a target, of a span or of all kinds are logged: `info`, `target=debug`, `target[span]=warn`,
`[span{field=value}]=trace`.

* `Log.Threshold` : the least important level that is logged, if any is;
* `Log.Directive` : one directive, and `Directive.parse?` what a text says;
* `Log.Filter` : all directives; `Filter.maxLevel` : the level beyond which nothing is logged;
* `Filter.choose` : the filter of a program. What the environment says counts before the settings.
-/

namespace SecretMount.Log

/-! ## Thresholds -/

inductive Threshold where
  | off
  | upTo (level : Level)
deriving DecidableEq, Repr

namespace Threshold

def name : Threshold → String
  | off => "off"
  | upTo .error => "error"
  | upTo .warn => "warn"
  | upTo .info => "info"
  | upTo .debug => "debug"
  | upTo .trace => "trace"

/-- All thresholds, the one that lets least through in front. -/
def all : List Threshold :=
  [off, upTo .error, upTo .warn, upTo .info, upTo .debug, upTo .trace]

/-- The number of a threshold. -/
def rank (t : Threshold) : Nat := all.idxOf t

/-- The threshold that a number or a name in any case stands for. The empty text stands for errors
only. -/
def ofText? (s : String) : Option Threshold :=
  match Numeral.read Numeral.max64 s with
  | .ok n => all[n]?
  | .error _ => if s.isEmpty then some (upTo .error) else all.find? fun t => t.name == s.toLower

/-- The one of two that lets more through. -/
def max (a b : Threshold) : Threshold := if a.rank < b.rank then b else a

end Threshold

/-! ## Directives -/

structure Directive where
  threshold : Threshold
  target : Option String
  span : Option String
  /-- The names of fields, some with a value. -/
  fields : List (String × Option String)
deriving DecidableEq, Repr

namespace Directive

/-- Lets everything through. -/
def blank : Directive := ⟨.upTo .trace, none, none, []⟩

/-- What is being read, and where in the text it began. -/
inductive Part where
  | start
  | word (first : Nat)
  | span (first : Nat)
  | field (first : Nat)
  | fieldsEnd
  | targetEnd
  | level (first : Nat)

/-- The text between two places, which are counted in bytes. -/
def slice? (text : Bytes) (a b : Nat) : Option String := Text.decode? ((text.take b).drop a)

/-- The words for what no digits stand for. -/
def isNumberWord (s : String) : Bool :=
  let unsigned := match s.toList with
    | '+' :: r | '-' :: r => r
    | r => r
  ["inf", "infinity", "nan"].contains (String.ofList unsigned).toLower

/-- Whether a field can be compared with `s`: a number, or else a pattern of its values. -/
def isFieldValue (s : String) : Bool :=
  (Decimal.read? s.toList).isSome || isNumberWord s || Pattern.isValid s

/-- A field with the value behind its first equals sign. -/
def field? (s : String) : Option (String × Option String) :=
  match Text.split '=' s with
  | [] => none
  | name :: values =>
    if s.isEmpty || !values.head?.all isFieldValue then none else some (name, values.head?)

/-- Whether a directive may start with `c`. -/
def startsWord (c : Char) : Bool :=
  c == '-' || c == ':' || c == '_' || Text.isAlphanumeric c

/-- Reads the character `c` at the place `i`. -/
def step (text : Bytes) (i : Nat) (c : Char) : Part → Directive → Option (Part × Directive)
  | .start, d =>
    if c = '[' then some (.span (i + 1), d)
    else if startsWord c then some (.word i, d)
    else none
  | .word a, d =>
    if c = '=' then do
      let target ← slice? text a i
      return (.level (i + 1), { d with target := some target })
    else if c = '[' then do
      let target ← slice? text a i
      return (.span (i + 1), { d with target := some target })
    else some (.word a, d)
  | .span a, d =>
    if c = ']' then do
      let span ← slice? text a i
      return (.targetEnd, { d with span := some span })
    else if c = '\x7b' then do
      let span ← slice? text a i
      return (.field (i + 1), { d with span := if span.isEmpty then none else some span })
    else some (.span a, d)
  | .field a, d =>
    if c = '\x7d' then do
      let field ← (slice? text a i).bind field?
      return (.fieldsEnd, { d with fields := d.fields ++ [field] })
    else some (.field a, d)
  | .fieldsEnd, d => if c = ']' then some (.targetEnd, d) else none
  | .targetEnd, d => if c = '=' then some (.level (i + 1), d) else none
  | .level a, d => some (.level a, d)

/-- Reads `cs`, which starts at the place `i`. -/
def run (text : Bytes) : Nat → List Char → Part → Directive → Option (Part × Directive)
  | _, [], part, d => some (part, d)
  | i, c :: cs, part, d => do
    let (part, d) ← step text i c part d
    run text (i + c.utf8Size) cs part d

/-- A word alone is a threshold or else a target. -/
def ofWord (word : String) (d : Directive) : Directive :=
  match Threshold.ofText? word with
  | some t => { d with threshold := t }
  | none => { d with target := some word }

/-- The directive at the end of its text. -/
def finish? (text : Bytes) : Part → Directive → Option Directive
  | .word a, d => do
    let word ← slice? text a text.length
    return ofWord word d
  | .level a, d => do
    let level ← slice? text a text.length
    if level.isEmpty then some d
    else do
      let t ← Threshold.ofText? level
      return { d with threshold := t }
  | .targetEnd, d => some d
  | _, _ => none

/-- The directive that `s` says. Blanks around it are passed over, but places are counted as if
there were none: those in front shift all parts. -/
def parse? (s : String) : Option Directive := do
  let text := Text.encode s
  let (part, d) ← run text 0 (Text.trim s).toList .start blank
  finish? text part d

/-- Whether a directive depends on the value of a field. -/
def hasValue (d : Directive) : Bool := d.fields.any fun f => f.2.isSome

end Directive

/-! ## Filters -/

abbrev Filter := List Directive

namespace Filter

/-- The filter that `s` says. -/
def parse? (s : String) : Option Filter :=
  ((Text.split ',' s).filter (!·.isEmpty)).mapM Directive.parse?

/-- The level beyond which nothing is logged. A filter that depends on values may let everything
through, and one without directives lets nothing through. -/
def maxLevel (f : Filter) : Threshold :=
  if f.any Directive.hasValue then .upTo .trace
  else f.foldl (fun t d => t.max d.threshold) .off

/-- The filter of a program, where `environment?` is what the environment says about it and `level`
what the settings say. Of the environment only a filter counts. -/
def choose (environment? : Option String) (level : String) : Except Refusal Filter :=
  match environment?.bind parse? with
  | some f => .ok f
  | none => (parse? level).elim (.error (.config s!"Invalid log level \"{level}\"")) .ok

end Filter

end SecretMount.Log
