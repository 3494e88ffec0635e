import SecretMount.Mount.Request
import SecretMount.Text.Quoted

/-!
# Responses to mount requests

* `Mount.ObjectVersion` : the name that was asked for and that of the version that was served;
* `Mount.File` : a file for the caller to write;
* `Mount.Response` : both for each entry, in the order of the entries;
* `toJson` and `ofJson?` of all types that are sent or received as JSON documents.
-/

namespace SecretMount.Mount

structure ObjectVersion where
  id : String
  version : String
deriving DecidableEq, Repr

structure File where
  path : String
  mode : Mode
  contents : Bytes
deriving DecidableEq, Repr

/-- What a program may print of a file. -/
def File.summary (f : File) : String :=
  s!"MountedFile \x7b path: {Text.quoted f.path}, mode: {f.mode.toInt}, " ++
    s!"contents: [{f.contents.length} bytes] \x7d"

structure Response where
  objectVersions : List ObjectVersion
  files : List File
deriving DecidableEq, Repr

/-! ## Documents -/

namespace Pod

def keys : List String := ["namespace", "name", "uid", "service_account"]

def shape : Json.Shape := .flat keys

def toJson (p : Pod) : Json :=
  .object [("namespace", .string p.namespaceName), ("name", .string p.name), ("uid", .string p.uid),
    ("service_account", .string p.serviceAccount)]

/-- A text that is empty when it is left out. -/
def textOrEmpty? : Option Json → Option String
  | none => some ""
  | some j => j.string?

def ofJson? (j : Json) : Option Pod := do
  let field ← j.fields? keys
  return {
    namespaceName := ← (field "namespace").bind Json.string?
    name := ← (field "name").bind Json.string?
    uid := ← textOrEmpty? (field "uid")
    serviceAccount := ← textOrEmpty? (field "service_account") }

end Pod

namespace RawRequest

def keys : List String := ["attributes", "target_path", "permissions"]

def shape : Json.Shape := .flat keys

def toJson (r : RawRequest) : Json :=
  .object [("attributes", .string r.attributes), ("target_path", .string r.targetPath),
    ("permissions", .string r.permissions)]

def ofJson? (j : Json) : Option RawRequest := do
  let field ← j.fields? keys
  return {
    attributes := ← (field "attributes").bind Json.string?
    targetPath := ← (field "target_path").bind Json.string?
    permissions := ← (field "permissions").bind Json.string? }

end RawRequest

namespace ObjectVersion

def keys : List String := ["id", "version"]

def shape : Json.Shape := .flat keys

def toJson (v : ObjectVersion) : Json :=
  .object [("id", .string v.id), ("version", .string v.version)]

def ofJson? (j : Json) : Option ObjectVersion := do
  let field ← j.fields? keys
  return {
    id := ← (field "id").bind Json.string?
    version := ← (field "version").bind Json.string? }

end ObjectVersion

namespace File

def keys : List String := ["path", "mode", "contents"]

def shape : Json.Shape := .flat keys

def byteToJson (b : UInt8) : Json := .number (.int b.toNat)

def byteOfJson? (j : Json) : Option UInt8 :=
  j.int?.bind fun i => if 0 ≤ i ∧ i < 256 then some (UInt8.ofNat i.toNat) else none

def toJson (f : File) : Json :=
  .object [("path", .string f.path), ("mode", Entry.modeToJson f.mode),
    ("contents", .array (f.contents.map byteToJson))]

def ofJson? (j : Json) : Option File := do
  let field ← j.fields? keys
  return {
    path := ← (field "path").bind Json.string?
    mode := ← (field "mode").bind Entry.modeOfJson?
    contents := ← (field "contents").bind (Json.items? byteOfJson?) }

end File

namespace Response

def keys : List String := ["object_versions", "files"]

def shape : Json.Shape :=
  .record [("object_versions", .listOf ObjectVersion.shape), ("files", .listOf File.shape)]

def toJson (r : Response) : Json :=
  .object [("object_versions", .array (r.objectVersions.map ObjectVersion.toJson)),
    ("files", .array (r.files.map File.toJson))]

def ofJson? (j : Json) : Option Response := do
  let field ← j.fields? keys
  return {
    objectVersions := ← (field "object_versions").bind (Json.items? ObjectVersion.ofJson?)
    files := ← (field "files").bind (Json.items? File.ofJson?) }

end Response

end SecretMount.Mount
