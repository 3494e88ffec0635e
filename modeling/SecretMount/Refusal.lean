/-!
# Refusals

* `Refusal` : why a request or the settings were not accepted as a whole, of one of four kinds;
* `Refusal.message` : what is reported.
-/

namespace SecretMount

inductive Refusal where
  | config (message : String)
  /-- A value is not allowed, perhaps that of one field. -/
  | validation (message : String) (field : Option String)
  | serialization (context : String)
  | internal (message : String)
deriving DecidableEq, Repr

namespace Refusal

def kind : Refusal → String
  | config _ => "Config"
  | validation _ _ => "Validation"
  | serialization _ => "Serialization"
  | internal _ => "Internal"

def message : Refusal → String
  | config m => "Configuration error: " ++ m
  | validation m _ => "Validation error: " ++ m
  | serialization c => "Serialization error: " ++ c
  | internal m => "Internal error: " ++ m

end Refusal

end SecretMount
