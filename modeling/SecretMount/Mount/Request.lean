import SecretMount.Mount.Entry
import SecretMount.Refusal

/-!
# Mount requests

* `Mount.Request` : the secrets that a pod asks for;
* `Mount.RawRequest` : a request as it arrives, three texts of which two are documents;
* `RawRequest.parse` : reads a request. The attributes are an object of texts, one of which is the
  list of entries;
* `Mount.parseEntries` : reads the list of entries;
* `Request.Fault` : why a request is refused.
-/

namespace SecretMount.Mount

/-- The pod that a request is for. It only appears in logs. -/
structure Pod where
  namespaceName : String
  name : String
  uid : String
  serviceAccount : String
deriving DecidableEq, Repr

structure Request where
  entries : List Entry
  /-- The mode of files that have none of their own. -/
  permissions : Mode
  pod : Pod
  targetPath : String
deriving DecidableEq, Repr

structure RawRequest where
  attributes : String
  targetPath : String
  permissions : String
deriving DecidableEq, Repr

/-! ## Faults -/

/-- Why a list of entries is refused. -/
inductive EntriesFault where
  | unreadable
  | empty
  | entry (index : Nat) (flaw : Entry.Flaw)
deriving DecidableEq, Repr

def EntriesFault.message : EntriesFault → String
  | unreadable => "Failed to parse \"secrets\" attribute"
  | empty => "\"secrets\" attribute lists no secrets"
  | entry index flaw => s!"secrets[{index}]: {flaw.message}"

inductive Request.Fault where
  | attributes
  | permissions (text : String)
  | noEntries
  | entries (fault : EntriesFault)
deriving DecidableEq, Repr

def Request.Fault.message : Request.Fault → String
  | attributes => "Failed to parse mount attributes"
  | permissions text => s!"Failed to parse file permissions \"{text}\""
  | noEntries => "Mount attributes are missing \"secrets\""
  | entries fault => fault.message

def Request.Fault.refusal (f : Request.Fault) : Refusal := .config f.message

/-! ## Entries -/

/-- The entries that `text` lists, checked or not. -/
def readEntries? (text : String) : Option (List Entry) :=
  (Yaml.readDocument (fun d t => do
    let items ← d.items t
    items.mapM (Entry.ofYaml d)) (Text.encode text)).toOption

/-- The first entry with a flaw. -/
def firstFlaw? (entries : List Entry) : Option (Nat × Entry.Flaw) :=
  entries.zipIdx.findSome? fun (e, index) => e.flaw?.map fun flaw => (index, flaw)

/-- The entries that `text` lists, at least one and none with a flaw. -/
def parseEntries (text : String) : Except EntriesFault (List Entry) :=
  match readEntries? text with
  | none => .error .unreadable
  | some [] => .error .empty
  | some entries =>
    match firstFlaw? entries with
    | some (index, flaw) => .error (.entry index flaw)
    | none => .ok entries

/-! ## Requests -/

namespace RawRequest

/-- The value of an attribute as a text. -/
def attribute? : String × Json → Option (String × String)
  | (k, .string s) => some (k, s)
  | _ => none

/-- The attributes in an object of texts. -/
def attributes? (text : String) : Option (Table String) :=
  match Json.parse (Text.encode text) with
  | .ok (.object members) => (members.mapM attribute?).map Table.ofList
  | _ => none

/-- The mode that `text` spells, with or without blanks around it. -/
def permissions? (text : String) : Option Mode :=
  match Json.parse (Text.encode (Text.trim text)) with
  | .ok j => Entry.modeOfJson? j
  | .error _ => none

/-- The pod that attributes tell of. -/
def pod (attributes : Table String) : Pod :=
  let text (k : String) : String := (attributes.get? k).getD ""
  { namespaceName := text "csi.storage.k8s.io/pod.namespace"
    name := text "csi.storage.k8s.io/pod.name"
    uid := text "csi.storage.k8s.io/pod.uid"
    serviceAccount := text "csi.storage.k8s.io/serviceAccount.name" }

/-- The request that `raw` is. -/
def parse (raw : RawRequest) : Except Request.Fault Request := do
  let attributes ← (attributes? raw.attributes).elim (.error .attributes) .ok
  let permissions ←
    (permissions? raw.permissions).elim (.error (.permissions raw.permissions)) .ok
  let text ← (attributes.get? "secrets").elim (.error .noEntries) .ok
  let entries ← (parseEntries text).mapError .entries
  return { entries, permissions, pod := pod attributes, targetPath := raw.targetPath }

end RawRequest

end SecretMount.Mount
