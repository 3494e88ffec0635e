import SecretMount.Mount.Failure

/-!
# What is told of a cause

Each kind of cause has one text. What it speaks of stands in it as it is: a status under its name, a
message of the backend, a location, a key.

* `Backend.Status.Called` : the name of each status;
* `VersionName.Flaw.Tells`, `Payload.Fault.Tells`, `Mount.Cause.Tells` : the texts of bad names, of
  bad payloads and of all causes;
* `Backend.Status.called_iff`, `Mount.Cause.tells_iff` : these are the names and texts in reports.
-/

namespace SecretMount

/-- The name under which a status is reported. -/
inductive Backend.Status.Called : Backend.Status → String → Prop
  | cancelled : Called .cancelled "Canceled"
  | unknown : Called .unknown "Unknown"
  | invalidArgument : Called .invalidArgument "InvalidArgument"
  | deadlineExceeded : Called .deadlineExceeded "DeadlineExceeded"
  | notFound : Called .notFound "NotFound"
  | alreadyExists : Called .alreadyExists "AlreadyExists"
  | permissionDenied : Called .permissionDenied "PermissionDenied"
  | resourceExhausted : Called .resourceExhausted "ResourceExhausted"
  | failedPrecondition : Called .failedPrecondition "FailedPrecondition"
  | aborted : Called .aborted "Aborted"
  | outOfRange : Called .outOfRange "OutOfRange"
  | unimplemented : Called .unimplemented "Unimplemented"
  | internal : Called .internal "Internal"
  | unavailable : Called .unavailable "Unavailable"
  | dataLoss : Called .dataLoss "DataLoss"
  | unauthenticated : Called .unauthenticated "Unauthenticated"

theorem Backend.Status.called_name (status : Backend.Status) : status.Called status.name := by
  cases status <;> constructor

/-- **Every status has one name.** -/
theorem Backend.Status.called_iff {status : Backend.Status} {name : String} :
    status.Called name ↔ status.name = name := by
  constructor
  · intro h
    cases h <;> rfl
  · rintro rfl
    exact status.called_name

/-! ## Names and payloads -/

/-- What is told of the flaw of a name. -/
inductive VersionName.Flaw.Tells : VersionName.Flaw → String → Prop
  | tooShort : Tells .tooShort "too few path segments"
  | badStart : Tells .badStart "must start with \"projects/\""
  | badEnd : Tells .badEnd "must end with \"secrets/<name>/versions/<version>\""
  | emptyProject : Tells .emptyProject "empty project"
  | emptySecret : Tells .emptySecret "empty secret name"
  | notANumber (token : String) : Tells (.badVersion token .notANumber)
      ("version \"" ++ token ++ "\" must be a number or \"latest\"")
  | leadingZero (token : String) : Tells (.badVersion token .leadingZero)
      ("version \"" ++ token ++ "\" must not have leading zeros")
  | outOfRange (token : String) : Tells (.badVersion token .outOfRange)
      ("version \"" ++ token ++ "\" is out of range")
  | unexpected (segment : String) : Tells (.unexpected segment)
      ("unexpected segment \"" ++ segment ++ "\" after project")
  | badLocation (location : String) : Tells (.badLocation location)
      ("invalid location \"" ++ location ++ "\"")

theorem VersionName.Flaw.tells_message (flaw : VersionName.Flaw) : flaw.Tells flaw.message := by
  cases flaw with
  | badVersion token what => cases what <;> constructor
  | _ => constructor

theorem VersionName.Flaw.tells_iff {flaw : VersionName.Flaw} {s : String} :
    flaw.Tells s ↔ flaw.message = s := by
  constructor
  · intro h
    cases h <;> rfl
  · rintro rfl
    exact flaw.tells_message

/-- The name of the format of a payload. -/
inductive Payload.Format.Called : Payload.Format → String → Prop
  | json : Called .json "JSON"
  | yaml : Called .yaml "YAML"

theorem Payload.Format.called_name (format : Payload.Format) : format.Called format.name := by
  cases format <;> constructor

/-- What is told of a payload. What is wrong about its text is in the words of the reader. -/
inductive Payload.Fault.Tells : Payload.Fault → String → Prop
  | base64 (fault : Base64.Fault) :
      Tells (.base64 fault) ("failed to decode base64 payload: " ++ fault.message)
  | json (fault : Json.Fault) :
      Tells (.json fault) ("failed to parse payload as JSON: " ++ fault.message)
  | yaml (fault : Yaml.Fault) :
      Tells (.yaml fault) ("failed to parse payload as YAML: " ++ fault.message)
  | missingKey {format : Payload.Format} {name : String} (key : String) (h : format.Called name) :
      Tells (.missingKey ⟨format, key⟩)
        ("key \"" ++ key ++ "\" not found in " ++ name ++ " payload")
  | notScalar {format : Payload.Format} {name : String} (key : String) (h : format.Called name) :
      Tells (.notScalar ⟨format, key⟩)
        ("key \"" ++ key ++ "\" in " ++ name ++ " payload is not a scalar value")

theorem Payload.Fault.tells_message (fault : Payload.Fault) : fault.Tells fault.message := by
  cases fault with
  | base64 fault => exact .base64 fault
  | json fault => exact .json fault
  | yaml fault => exact .yaml fault
  | missingKey e => exact .missingKey e.key e.format.called_name
  | notScalar e => exact .notScalar e.key e.format.called_name

theorem Payload.Fault.tells_iff {fault : Payload.Fault} {s : String} :
    fault.Tells s ↔ fault.message = s := by
  constructor
  · intro h
    cases h with
    | missingKey key h | notScalar key h => cases h <;> rfl
    | _ => rfl
  · rintro rfl
    exact fault.tells_message

/-! ## Causes -/

/-- What is told of a cause. -/
inductive Mount.Cause.Tells : Mount.Cause → String → Prop
  | name {flaw : VersionName.Flaw} {reason : String} (text : String) (h : flaw.Tells reason) :
      Tells (.name ⟨text, flaw⟩) ("Invalid secret resource name \"" ++ text ++ "\": " ++ reason)
  | noDestination : Tells .noDestination "no destination file name or path"
  | unrouted (location : String) : Tells (.unrouted location)
      ("no Secret Manager client configured for location \"" ++ location ++ "\"")
  | backend {status : Backend.Status} {name : String} (words : String) (h : status.Called name) :
      Tells (.backend ⟨status, words⟩)
        ("failed to access secret version: code = " ++ name ++ " desc = " ++ words)
  | unresolved (served : String) :
      Tells (.unresolved served) ("backend returned unresolved version \"" ++ served ++ "\"")
  | payload {fault : Payload.Fault} {text : String} (h : fault.Tells text) :
      Tells (.payload fault) text
  | cancelled : Tells .cancelled "fetch cancelled before completion"
  | timeout (limit : Nat) : Tells (.timeout limit) ("fetch timed out after " ++ Duration.text limit)

theorem Mount.Cause.message_backend (status : Backend.Status) (words : String) :
    (Mount.Cause.backend ⟨status, words⟩).message =
      "failed to access secret version: code = " ++ status.name ++ " desc = " ++ words := by
  have hmessage : (Mount.Cause.backend ⟨status, words⟩).message =
      "failed to access secret version: " ++
        ("code = " ++ status.name ++ " desc = " ++ words) := rfl
  have hframe : "failed to access secret version: code = " =
      "failed to access secret version: " ++ "code = " := rfl
  rw [hmessage, hframe]
  simp only [String.append_assoc]

theorem Mount.Cause.tells_message (cause : Mount.Cause) : cause.Tells cause.message := by
  cases cause with
  | name fault => exact .name fault.name fault.flaw.tells_message
  | noDestination => exact .noDestination
  | unrouted location => exact .unrouted location
  | backend failure =>
    rw [Mount.Cause.message_backend]
    exact .backend failure.message failure.status.called_name
  | unresolved served => exact .unresolved served
  | payload fault => exact .payload fault.tells_message
  | cancelled => exact .cancelled
  | timeout limit => exact .timeout limit

/-- **Every cause has one text.** -/
theorem Mount.Cause.tells_iff {cause : Mount.Cause} {s : String} :
    cause.Tells s ↔ cause.message = s := by
  constructor
  · intro h
    cases h with
    | name text h =>
      rw [← VersionName.Flaw.tells_iff.1 h]
      rfl
    | backend words h => rw [Mount.Cause.message_backend, Backend.Status.called_iff.1 h]
    | payload h => exact Payload.Fault.tells_iff.1 h
    | _ => rfl
  · rintro rfl
    exact cause.tells_message

end SecretMount
