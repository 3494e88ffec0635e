import SecretMount.Base64
import SecretMount.Json.Parse
import SecretMount.Text.Blank
import SecretMount.Yaml.Value

/-!
# Payloads

What becomes of the bytes of a secret before they are written to a file.

* `Payload.Encoding`, `Payload.Extraction` : that the payload is base64 text, and that only one key
  of it is wanted;
* `Payload.transform` : decodes first and extracts then;
* `Payload.decodeBase64`, `Payload.extractJson`, `Payload.extractYaml` : the single steps;
* `Payload.Fault` : why a step fails. `Fault.redacted` withholds what quotes the payload.
-/

namespace SecretMount.Payload

inductive Encoding where
  | base64
deriving DecidableEq, Repr

namespace Encoding

def name : Encoding → String
  | base64 => "base64"

def ofName? (s : String) : Option Encoding := if s = "base64" then some base64 else none

/-- The encoding called `s`, or what is said when there is none. -/
def parse (s : String) : Except String Encoding :=
  (ofName? s).elim (.error s!"Unknown secret encoding: {s}") .ok

end Encoding

/-- The document format of a payload. -/
inductive Format where
  | json
  | yaml
deriving DecidableEq, Repr

def Format.name : Format → String
  | .json => "JSON"
  | .yaml => "YAML"

structure Extraction where
  format : Format
  key : String
deriving DecidableEq, Repr

inductive Fault where
  | base64 (fault : Base64.Fault)
  | json (fault : Json.Fault)
  | yaml (fault : Yaml.Fault)
  | missingKey (extraction : Extraction)
  | notScalar (extraction : Extraction)
deriving DecidableEq, Repr

def Fault.message : Fault → String
  | .base64 f => "failed to decode base64 payload: " ++ f.message
  | .json f => "failed to parse payload as JSON: " ++ f.message
  | .yaml f => "failed to parse payload as YAML: " ++ f.message
  | .missingKey e => s!"key \"{e.key}\" not found in {e.format.name} payload"
  | .notScalar e => s!"key \"{e.key}\" in {e.format.name} payload is not a scalar value"

/-- The fault as it is told to others, who learn nothing of the text of a YAML payload from it. -/
def Fault.redacted : Fault → Fault
  | .yaml _ => .yaml .withheld
  | f => f

/-- The bytes of base64 text with blanks anywhere in it. -/
def decodeBase64 (payload : Bytes) : Except Fault Bytes :=
  (Base64.decode (payload.filter (!Text.isAsciiBlank ·))).mapError .base64

/-! ## Extraction -/

def boolText (b : Bool) : String := if b then "true" else "false"

/-- The text of a scalar; a null counts as missing. -/
def jsonScalar (key : String) : Option Json → Except Fault String
  | none | some .null => .error (.missingKey ⟨.json, key⟩)
  | some (.string s) => .ok s
  | some (.number n) => .ok (n.text Json.layout)
  | some (.bool b) => .ok (boolText b)
  | some (.array _) | some (.object _) => .error (.notScalar ⟨.json, key⟩)

/-- The scalar under `key` of the object that `payload` is the text of. -/
def extractJson (payload : Bytes) (key : String) : Except Fault Bytes := do
  let document ← (Json.parse payload).mapError .json
  let text ← jsonScalar key (document.member? key)
  return Text.encode text

/-- The text of a scalar; a null counts as missing, and a value with a tag of its own is none. -/
def yamlScalar (key : String) : Option Yaml.Value → Except Fault String
  | none | some .null => .error (.missingKey ⟨.yaml, key⟩)
  | some (.string s) => .ok s
  | some (.number n) => .ok (n.text Yaml.Schema.layout)
  | some (.bool b) => .ok (boolText b)
  | some (.list _) | some (.mapping _) | some (.tagged _ _) => .error (.notScalar ⟨.yaml, key⟩)

/-- The scalar under `key` of the mapping that `payload` is the text of. -/
def extractYaml (payload : Bytes) (key : String) : Except Fault Bytes := do
  let document ← (Yaml.Value.parse payload).mapError .yaml
  let text ← yamlScalar key (document.member? key)
  return Text.encode text

def extract (payload : Bytes) (e : Extraction) : Except Fault Bytes :=
  match e.format with
  | .json => extractJson payload e.key
  | .yaml => extractYaml payload e.key

/-! ## Both steps -/

def transform (payload : Bytes) (encoding : Option Encoding) (extraction : Option Extraction) :
    Except Fault Bytes := do
  let decoded ← match encoding with
    | some .base64 => decodeBase64 payload
    | none => pure payload
  match extraction with
  | some e => extract decoded e
  | none => return decoded

end SecretMount.Payload
