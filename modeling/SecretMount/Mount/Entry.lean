import SecretMount.Json.Record
import SecretMount.Payload
import SecretMount.Text.Pieces
import SecretMount.Yaml.Record

/-!
# Entries of mount requests

* `Mount.Entry` : one secret that is asked for, with the place of its file;
* `Entry.outputPath`, `Entry.effectiveMode`, `Entry.extraction` : what an entry means when it says
  something twice or not at all;
* `Entry.toJson`, `Entry.ofJson?`, `Entry.ofYaml` : the forms of an entry in documents;
* `Entry.flaw?` : why an entry is refused.
-/

namespace SecretMount.Mount

/-- The mode of a file, as it is given. -/
abbrev Mode := Int32

structure Entry where
  /-- The name of the secret version, kept as it is written. -/
  resourceName : String
  fileName : Option String
  path : Option String
  mode : Option Mode
  encoding : Option Payload.Encoding
  jsonKey : Option String
  yamlKey : Option String
deriving DecidableEq, Repr

namespace Entry

/-- A secret that is written to `fileName` as it is. -/
def new (resourceName fileName : String) : Entry :=
  ⟨resourceName, some fileName, none, none, none, none, none⟩

/-- The same secret, written to `path` in place of a file name. -/
def withPath (e : Entry) (path : String) : Entry := { e with fileName := none, path := some path }

/-- The place of the file below the mount, empty when there is none. The path counts before the file
name. -/
def outputPath (e : Entry) : String := (e.path.or e.fileName).getD ""

/-- The mode of the file, where `default` is that of the mount. -/
def effectiveMode (e : Entry) (default : Mode) : Mode := e.mode.getD default

/-- The key that is wanted, if only one is. The key of a JSON payload counts before that of a YAML
payload. -/
def extraction (e : Entry) : Option Payload.Extraction :=
  match e.jsonKey, e.yamlKey with
  | some key, _ => some ⟨.json, key⟩
  | none, some key => some ⟨.yaml, key⟩
  | none, none => none

/-! ## Documents -/

/-- The mode that is `i`, if modes reach that far. -/
def modeOfInt? (i : Int) : Option Mode :=
  if -0x80000000 ≤ i ∧ i < 0x80000000 then some (Int32.ofInt i) else none

def modeToJson (m : Mode) : Json := .number (.int m.toInt)

def modeOfJson? (j : Json) : Option Mode := j.int?.bind modeOfInt?

/-- The keys of an entry. -/
def keys : List String :=
  ["resourceName", "fileName", "path", "mode", "encoding", "extractJSONKey", "extractYAMLKey"]

def shape : Json.Shape := .flat keys

/-- The form of an entry in JSON documents, without what is not set. -/
def toJson (e : Entry) : Json :=
  .object ([("resourceName", .string e.resourceName)] ++
    (e.fileName.map fun s => ("fileName", Json.string s)).toList ++
    (e.path.map fun s => ("path", Json.string s)).toList ++
    (e.mode.map fun m => ("mode", modeToJson m)).toList ++
    (e.encoding.map fun c => ("encoding", Json.string c.name)).toList ++
    (e.jsonKey.map fun s => ("extractJSONKey", Json.string s)).toList ++
    (e.yamlKey.map fun s => ("extractYAMLKey", Json.string s)).toList)

/-- An encoding is its name, or an object with nothing under that name. -/
def encodingOfJson? : Json → Option Payload.Encoding
  | .string s => Payload.Encoding.ofName? s
  | .object [(k, .null)] => Payload.Encoding.ofName? k
  | _ => none

def ofJson? (j : Json) : Option Entry := do
  let field ← j.fields? keys
  return {
    resourceName := ← (field "resourceName").bind Json.string?
    fileName := ← Json.optional? Json.string? (field "fileName")
    path := ← Json.optional? Json.string? (field "path")
    mode := ← Json.optional? modeOfJson? (field "mode")
    encoding := ← Json.optional? encodingOfJson? (field "encoding")
    jsonKey := ← Json.optional? Json.string? (field "extractJSONKey")
    yamlKey := ← Json.optional? Json.string? (field "extractYAMLKey") }

/-- An encoding is its name, or the tag of that name on nothing. -/
def encodingOfYaml (d : Yaml.Document) (t : Yaml.Tree) : Yaml.Reading Payload.Encoding := do
  let s ← d.scalar t
  match Yaml.Schema.customName? s.tag with
  | none => Yaml.Reading.ofOption (Payload.Encoding.ofName? s.text)
  | some name =>
    if s.style = .plain ∧ (s.text.isEmpty ∨ Yaml.Schema.isNull s.text) then
      Yaml.Reading.ofOption ((Text.decode? name).bind Payload.Encoding.ofName?)
    else throw .unfit

def modeOfYaml (d : Yaml.Document) (t : Yaml.Tree) : Yaml.Reading Mode := do
  Yaml.Reading.ofOption (modeOfInt? (← d.int t))

/-- The entry that a node of a YAML document says. -/
def ofYaml (d : Yaml.Document) (t : Yaml.Tree) : Yaml.Reading Entry := do
  let field ← d.fields keys t
  return {
    resourceName := ← Yaml.Document.required d.text (field "resourceName")
    fileName := ← d.optional d.text (field "fileName")
    path := ← d.optional d.text (field "path")
    mode := ← d.optional (modeOfYaml d) (field "mode")
    encoding := ← d.optional (encodingOfYaml d) (field "encoding")
    jsonKey := ← d.optional d.text (field "extractJSONKey")
    yamlKey := ← d.optional d.text (field "extractYAMLKey") }

/-! ## Flaws -/

/-- Why an entry is refused. -/
inductive Flaw where
  | noResourceName
  | twoDestinations
  | noDestination
  | badFileName (fileName : String)
  | badPath (path : String)
  | twoKeys
deriving DecidableEq, Repr

def Flaw.message : Flaw → String
  | noResourceName => "resourceName is required"
  | twoDestinations => "only one of fileName and path may be set"
  | noDestination => "one of fileName or path is required"
  | badFileName s => s!"fileName \"{s}\" must be a plain file name"
  | badPath s => s!"path \"{s}\" must be relative and stay inside the mount"
  | twoKeys => "only one of extractJSONKey and extractYAMLKey may be set"

/-- A plain file name is a single component of a path. -/
def isPlainName (s : String) : Bool := !s.isEmpty && !s.toList.contains '/'

/-- A path that starts in the mount and never goes up. -/
def staysInside (s : String) : Bool :=
  !s.isEmpty && s.toList.head? != some '/' && !(Text.split '/' s).contains ".."

/-- What is wrong about the place of the file. -/
def destinationFlaw? (e : Entry) : Option Flaw :=
  match e.fileName, e.path with
  | some _, some _ => some .twoDestinations
  | none, none => some .noDestination
  | some s, none => if isPlainName s then none else some (.badFileName s)
  | none, some s => if staysInside s then none else some (.badPath s)

/-- The first thing that is wrong about an entry. -/
def flaw? (e : Entry) : Option Flaw :=
  if (Text.trim e.resourceName).isEmpty then some .noResourceName
  else match e.destinationFlaw? with
    | some flaw => some flaw
    | none => if e.jsonKey.isSome && e.yamlKey.isSome then some .twoKeys else none

end Entry

end SecretMount.Mount
