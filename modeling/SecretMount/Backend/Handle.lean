import SecretMount.Backend.Status
import SecretMount.Log.Event
import SecretMount.Text.Quoted

/-!
# Handles

* `Backend.Served` : the bytes of a secret version, with the name under which they were served;
* `Backend.Reply` : what comes of one access;
* `Backend.Handle` : what can be known of one endpoint for as long as a request takes: it gives one
  answer to each name, after a time that is fixed for the name;
* `Backend.globalEndpoint`, `Backend.regionalEndpoint` : the endpoints of the service.
-/

namespace SecretMount.Backend

structure Served where
  name : String
  data : Bytes
deriving DecidableEq, Repr

/-- What a program may print of a served version. -/
def Served.summary (s : Served) : String :=
  s!"AccessedSecretVersion \x7b name: {Text.quoted s.name}, data: \"[REDACTED]\" \x7d"

abbrev Answer := Except Failure Served

structure Reply where
  answer : Answer
  /-- What the backend logs about it. -/
  events : List Log.Event

structure Handle where
  /-- Handles with the same number are the same. -/
  id : Nat
  endpoint : String
  /-- The time that an access to a name takes. -/
  latency : String → Nat
  reply : String → Reply

def globalEndpoint : String := "https://secretmanager.googleapis.com/"

/-- The endpoint of the secrets that are kept in `location`. -/
def regionalEndpoint (location : String) : String :=
  s!"https://secretmanager.{location}.rep.googleapis.com/"

end SecretMount.Backend
