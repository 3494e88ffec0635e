import SecretMount.Json.Value

/-!
# Status codes and failures of backends

* `Backend.Status` : the status codes of the service, with the names under which they are reported;
* `Status.ofService`, `Status.ofHttp` : the status that a word or a number of the service stands
  for;
* `Backend.Failure` : a status with the message of the service, kept as it is;
* `Failure.ofBody` : the failure that the body of an answer tells.
-/

namespace SecretMount.Backend

inductive Status where
  | cancelled
  | unknown
  | invalidArgument
  | deadlineExceeded
  | notFound
  | alreadyExists
  | permissionDenied
  | resourceExhausted
  | failedPrecondition
  | aborted
  | outOfRange
  | unimplemented
  | internal
  | unavailable
  | dataLoss
  | unauthenticated
deriving DecidableEq, Repr

namespace Status

def name : Status → String
  | cancelled => "Canceled"
  | unknown => "Unknown"
  | invalidArgument => "InvalidArgument"
  | deadlineExceeded => "DeadlineExceeded"
  | notFound => "NotFound"
  | alreadyExists => "AlreadyExists"
  | permissionDenied => "PermissionDenied"
  | resourceExhausted => "ResourceExhausted"
  | failedPrecondition => "FailedPrecondition"
  | aborted => "Aborted"
  | outOfRange => "OutOfRange"
  | unimplemented => "Unimplemented"
  | internal => "Internal"
  | unavailable => "Unavailable"
  | dataLoss => "DataLoss"
  | unauthenticated => "Unauthenticated"

/-- The words of the service. There is none for an unknown status. -/
def serviceWords : List (String × Status) :=
  [("CANCELLED", cancelled), ("INVALID_ARGUMENT", invalidArgument),
    ("DEADLINE_EXCEEDED", deadlineExceeded), ("NOT_FOUND", notFound),
    ("ALREADY_EXISTS", alreadyExists), ("PERMISSION_DENIED", permissionDenied),
    ("RESOURCE_EXHAUSTED", resourceExhausted), ("FAILED_PRECONDITION", failedPrecondition),
    ("ABORTED", aborted), ("OUT_OF_RANGE", outOfRange), ("UNIMPLEMENTED", unimplemented),
    ("INTERNAL", internal), ("UNAVAILABLE", unavailable), ("DATA_LOSS", dataLoss),
    ("UNAUTHENTICATED", unauthenticated)]

/-- The status that a word of the service stands for. -/
def ofService (word : String) : Status := (serviceWords.lookup word).getD unknown

/-- The status that the status number of an HTTP answer stands for. -/
def ofHttp (n : Nat) : Status :=
  match n with
  | 400 => invalidArgument
  | 401 => unauthenticated
  | 403 => permissionDenied
  | 404 => notFound
  | 409 => aborted
  | 412 => failedPrecondition
  | 429 => resourceExhausted
  | 499 => cancelled
  | 501 => unimplemented
  | 503 => unavailable
  | 504 => deadlineExceeded
  | n => if 500 ≤ n ∧ n ≤ 599 then internal else unknown

end Status

structure Failure where
  status : Status
  message : String
deriving DecidableEq, Repr

namespace Failure

def text (f : Failure) : String := s!"code = {f.status.name} desc = {f.message}"

/-! ## Failures in the bodies of answers -/

/-- The status that the number of an error stands for, if it is an integer of sixteen bits. -/
def ofNumber : Option Json → Status
  | some (.number (.int i)) => if 0 ≤ i ∧ i < 0x10000 then Status.ofHttp i.toNat else .unknown
  | _ => .unknown

/-- The status of an error: its word counts before its number. -/
def statusOf (error : Json) : Status :=
  match (error.member? "status").bind Json.string? with
  | some word => Status.ofService word
  | none => ofNumber (error.member? "code")

/-- The message of an error, or all of it when it has none. -/
def messageOf (error : Json) : String :=
  ((error.member? "message").bind Json.string?).getD error.sorted.text

/-- The failure that a body tells. One without an error is its own message. -/
def ofBody (body : Json) : Failure :=
  match body.member? "error" with
  | none => ⟨.unknown, body.sorted.text⟩
  | some error => ⟨statusOf error, messageOf error⟩

end Failure

end SecretMount.Backend
