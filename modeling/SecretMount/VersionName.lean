import SecretMount.Location
import SecretMount.Text.Numeral
import SecretMount.Text.Pieces

/-!
# Names of secret versions

A secret version is named by a path, `projects/P/secrets/S/versions/V`, with `locations/L` behind
the project when the secret is kept in one location.

* `Version` : a number, or the alias for the newest version;
* `VersionName` : the parts of a name; `VersionName.secretPath`, `VersionName.text` : its paths;
* `VersionName.parse` : the name that a text spells. A text that is accepted is the text of its
  name, so each name has one spelling;
* `VersionName.Fault` : a text that is no name, with what is wrong about it.
-/

namespace SecretMount

inductive Version where
  | latest
  | number (n : Nat)
deriving DecidableEq, Repr

namespace Version

def text : Version → String
  | latest => "latest"
  | number n => toString n

/-- Whether the backend decides which version this is. -/
def isAlias : Version → Bool
  | latest => true
  | number _ => false

/-- What is wrong about a version. -/
inductive Flaw where
  | notANumber
  | leadingZero
  | outOfRange
deriving DecidableEq, Repr

/-- The version that a text spells: numbers start at one and have at most 64 bits. -/
def parse (s : String) : Except Flaw Version :=
  if s = "latest" then .ok latest
  else if s.toList.isEmpty || !s.toList.all Char.isDigit then .error .notANumber
  else if 1 < s.toList.length ∧ s.toList.head? = some '0' then .error .leadingZero
  else match Numeral.read Numeral.max64 s with
    | .ok 0 | .error _ => .error .outOfRange
    | .ok n => .ok (number n)

end Version

structure VersionName where
  project : String
  location : Option String
  secret : String
  version : Version
deriving DecidableEq, Repr

namespace VersionName

/-! ## Writing -/

/-- The segments in front of the secret. -/
def parentSegments (n : VersionName) : List String :=
  match n.location with
  | some l => ["projects", n.project, "locations", l]
  | none => ["projects", n.project]

/-- The path of the secret that this is a version of. -/
def secretPath (n : VersionName) : String :=
  Text.joinWith '/' (n.parentSegments ++ ["secrets", n.secret])

def text (n : VersionName) : String := n.secretPath ++ "/versions/" ++ n.version.text

/-- The same secret in another version. -/
def withVersion (n : VersionName) (v : Version) : VersionName := { n with version := v }

/-- Whether only the endpoint of a location serves this. -/
def isRegional (n : VersionName) : Bool := n.location.isSome

/-! ## Reading -/

/-- What is wrong about a text that is no name. -/
inductive Flaw where
  | tooShort
  | badStart
  | badEnd
  | emptyProject
  | emptySecret
  | badVersion (token : String) (flaw : Version.Flaw)
  | unexpected (segment : String)
  | badLocation (location : String)
deriving DecidableEq, Repr

def Flaw.message : Flaw → String
  | tooShort => "too few path segments"
  | badStart => "must start with \"projects/\""
  | badEnd => "must end with \"secrets/<name>/versions/<version>\""
  | emptyProject => "empty project"
  | emptySecret => "empty secret name"
  | badVersion token .notANumber => s!"version \"{token}\" must be a number or \"latest\""
  | badVersion token .leadingZero => s!"version \"{token}\" must not have leading zeros"
  | badVersion token .outOfRange => s!"version \"{token}\" is out of range"
  | unexpected segment => s!"unexpected segment \"{segment}\" after project"
  | badLocation location => s!"invalid location \"{location}\""

structure Fault where
  name : String
  flaw : Flaw
deriving DecidableEq, Repr

namespace Fault

def message (f : Fault) : String :=
  s!"Invalid secret resource name \"{f.name}\": {f.flaw.message}"

/-- Whether nothing but the location is wrong. -/
def isLocation (f : Fault) : Bool :=
  match f.flaw with
  | .badLocation _ => true
  | _ => false

end Fault

/-- The location in the segments between the project and `secrets`. -/
def parseLocation (segments : List String) : Except Flaw (Option String) :=
  match segments with
  | [] => .ok none
  | first :: ids =>
    if first ≠ "locations" then .error (.unexpected first)
    else
      let location := Text.joinWith '/' ids
      if ids.length = 1 ∧ Location.isValid location then .ok (some location)
      else .error (.badLocation location)

/-- The name that segments spell. -/
def ofSegments (segments : List String) : Except Flaw VersionName :=
  if segments.length < 6 then .error .tooShort
  else match segments, segments.drop (segments.length - 4) with
    | first :: project :: rest, [secrets, secret, versions, token] =>
      if first ≠ "projects" then .error .badStart
      else if secrets ≠ "secrets" ∨ versions ≠ "versions" then .error .badEnd
      else if project = "" then .error .emptyProject
      else if secret = "" then .error .emptySecret
      else do
        let version ← (Version.parse token).mapError (.badVersion token)
        let location ← parseLocation (rest.take (segments.length - 6))
        return { project, location, secret, version }
    | _, _ => .error .tooShort

/-- The name that `s` spells. -/
def parse (s : String) : Except Fault VersionName :=
  (ofSegments (Text.split '/' s)).mapError fun flaw => ⟨s, flaw⟩

end VersionName

end SecretMount
