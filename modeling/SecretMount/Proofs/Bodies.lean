import SecretMount.Backend.Status
import SecretMount.Proofs.Compact
import SecretMount.Proofs.Integers

/-!
# Failures in the bodies of answers

A body tells a failure whatever its shape. What it does not have as it should is passed over: a
message that is no text, a word that is none, a number that is no integer of sixteen bits.

* `Status.Word`, `Status.Number` : the words and numbers that have a status of their own;
* `Status.Means`, `Status.MeansOf` : the status of any word and of any number
  (`Status.ofService_eq_iff`, `Status.ofHttp_eq_iff`);
* `Failure.StatusOf`, `Failure.MessageOf` : status and message of an error, one case for each way to
  come to them;
* `Failure.TellsOf` : the failure of a body;
* `Failure.told_by_body` : this is the failure that is read, and no number gives it a status but one
  of a failed request, written without a sign, a fraction and an exponent.
-/

namespace SecretMount.Backend

open Json (HasMember Compact)

/-! ## Words and numbers -/

namespace Status

/-- The words of the service. -/
inductive Word : String → Status → Prop
  | cancelled : Word "CANCELLED" .cancelled
  | invalidArgument : Word "INVALID_ARGUMENT" .invalidArgument
  | deadlineExceeded : Word "DEADLINE_EXCEEDED" .deadlineExceeded
  | notFound : Word "NOT_FOUND" .notFound
  | alreadyExists : Word "ALREADY_EXISTS" .alreadyExists
  | permissionDenied : Word "PERMISSION_DENIED" .permissionDenied
  | resourceExhausted : Word "RESOURCE_EXHAUSTED" .resourceExhausted
  | failedPrecondition : Word "FAILED_PRECONDITION" .failedPrecondition
  | aborted : Word "ABORTED" .aborted
  | outOfRange : Word "OUT_OF_RANGE" .outOfRange
  | unimplemented : Word "UNIMPLEMENTED" .unimplemented
  | internal : Word "INTERNAL" .internal
  | unavailable : Word "UNAVAILABLE" .unavailable
  | dataLoss : Word "DATA_LOSS" .dataLoss
  | unauthenticated : Word "UNAUTHENTICATED" .unauthenticated

/-- The status of a word: its own, or else it is unknown. -/
inductive Means (word : String) : Status → Prop
  | listed {status : Status} (h : Word word status) : Means word status
  | unlisted (h : ∀ status, ¬ Word word status) : Means word .unknown

/-- The numbers of HTTP answers that have a status of their own. -/
inductive Number : Nat → Status → Prop
  | invalidArgument : Number 400 .invalidArgument
  | unauthenticated : Number 401 .unauthenticated
  | permissionDenied : Number 403 .permissionDenied
  | notFound : Number 404 .notFound
  | aborted : Number 409 .aborted
  | failedPrecondition : Number 412 .failedPrecondition
  | resourceExhausted : Number 429 .resourceExhausted
  | cancelled : Number 499 .cancelled
  | unimplemented : Number 501 .unimplemented
  | unavailable : Number 503 .unavailable
  | deadlineExceeded : Number 504 .deadlineExceeded

/-- The status of a number: its own, or else that of a fault of the server, or it is unknown. -/
inductive MeansOf (n : Nat) : Status → Prop
  | listed {status : Status} (h : Number n status) : MeansOf n status
  | server (h : ∀ status, ¬ Number n status) (hn : 500 ≤ n ∧ n ≤ 599) : MeansOf n .internal
  | other (h : ∀ status, ¬ Number n status) (hn : n < 500 ∨ 599 < n) : MeansOf n .unknown

theorem mem_serviceWords_iff {word : String} {status : Status} :
    (word, status) ∈ serviceWords ↔ Word word status := by
  constructor
  · intro h
    simp only [serviceWords, List.mem_cons, Prod.mk.injEq, List.not_mem_nil, or_false] at h
    rcases h with ⟨rfl, rfl⟩ | ⟨rfl, rfl⟩ | ⟨rfl, rfl⟩ | ⟨rfl, rfl⟩ | ⟨rfl, rfl⟩ | ⟨rfl, rfl⟩ |
      ⟨rfl, rfl⟩ | ⟨rfl, rfl⟩ | ⟨rfl, rfl⟩ | ⟨rfl, rfl⟩ | ⟨rfl, rfl⟩ | ⟨rfl, rfl⟩ | ⟨rfl, rfl⟩ |
      ⟨rfl, rfl⟩ | ⟨rfl, rfl⟩ <;> constructor
  · rintro ⟨⟩ <;> decide

theorem nodup_serviceWords : (serviceWords.map Prod.fst).Nodup := by decide

theorem lookup_serviceWords_iff {word : String} {status : Status} :
    serviceWords.lookup word = some status ↔ Word word status :=
  (Table.lookup_eq_some_iff nodup_serviceWords).trans mem_serviceWords_iff

/-- **Every word has one status.** -/
theorem ofService_eq_iff {word : String} {status : Status} :
    ofService word = status ↔ Means word status := by
  unfold ofService
  cases hlookup : serviceWords.lookup word with
  | some s =>
    have hword := lookup_serviceWords_iff.1 hlookup
    constructor
    · rintro rfl
      exact .listed hword
    · rintro (h | h)
      · exact Option.some.inj (hlookup.symm.trans (lookup_serviceWords_iff.2 h))
      · exact absurd hword (h s)
  | none =>
    have hword : ∀ s, ¬ Word word s := fun s h => by
      rw [lookup_serviceWords_iff.2 h] at hlookup
      cases hlookup
    constructor
    · rintro rfl
      exact .unlisted hword
    · rintro (h | -)
      · exact absurd h (hword status)
      · rfl

theorem ofHttp_of_number {n : Nat} {status : Status} (h : Number n status) : ofHttp n = status := by
  cases h <;> rfl

theorem ofHttp_of_unlisted {n : Nat} (h : ∀ status, ¬ Number n status) :
    ofHttp n = if 500 ≤ n ∧ n ≤ 599 then internal else unknown := by
  unfold ofHttp
  split
  case h_12 => rfl
  all_goals exact absurd (by constructor) (h _)

/-- **Every number has one status.** -/
theorem ofHttp_eq_iff {n : Nat} {status : Status} : ofHttp n = status ↔ MeansOf n status := by
  constructor
  · rintro rfl
    by_cases h : ∃ status, Number n status
    · obtain ⟨status, h⟩ := h
      rw [ofHttp_of_number h]
      exact .listed h
    · have hnone := not_exists.1 h
      rw [ofHttp_of_unlisted hnone]
      split
      · next hn => exact .server hnone hn
      · next hn => exact .other hnone (by omega)
  · rintro (h | ⟨h, hn⟩ | ⟨h, hn⟩)
    · exact ofHttp_of_number h
    · rw [ofHttp_of_unlisted h, if_pos hn]
    · rw [ofHttp_of_unlisted h, if_neg (by omega)]

/-- A number with a status is that of a failed HTTP request. -/
theorem MeansOf.bounds {n : Nat} {status : Status} (h : MeansOf n status)
    (hstatus : status ≠ .unknown) : 400 ≤ n ∧ n ≤ 599 := by
  rcases h with h | ⟨-, hn⟩ | -
  · cases h <;> omega
  · omega
  · exact absurd rfl hstatus

end Status

namespace Failure

/-! ## Errors -/

/-- The status of an error. Its word counts before its number, whatever the word is. -/
inductive StatusOf (error : Json) : Status → Prop
  | word {word : String} {status : Status} (h : HasMember "status" (.string word) error)
      (hstatus : Status.Means word status) : StatusOf error status
  | number {n : Nat} {status : Status} (hword : ∀ word, ¬ HasMember "status" (.string word) error)
      (h : HasMember "code" (.number (.int n)) error) (hn : n ≤ 65535)
      (hstatus : Status.MeansOf n status) : StatusOf error status
  | neither (hword : ∀ word, ¬ HasMember "status" (.string word) error)
      (h : ∀ n : Nat, n ≤ 65535 → ¬ HasMember "code" (.number (.int n)) error) :
      StatusOf error .unknown

/-- The message of an error: its own, or else the text of the error. -/
inductive MessageOf (error : Json) : String → Prop
  | own {message : String} (h : HasMember "message" (.string message) error) :
      MessageOf error message
  | whole {message : String} (h : ∀ own, ¬ HasMember "message" (.string own) error)
      (hmessage : Compact error message) : MessageOf error message

/-- The failure that a body tells. -/
inductive TellsOf (body : Json) : Failure → Prop
  | error {error : Json} {status : Status} {message : String} (h : HasMember "error" error body)
      (hstatus : StatusOf error status) (hmessage : MessageOf error message) :
      TellsOf body ⟨status, message⟩
  | noError {message : String} (h : ∀ error, ¬ HasMember "error" error body)
      (hmessage : Compact body message) : TellsOf body ⟨.unknown, message⟩

theorem member_string_eq_some_iff {key t : String} {j : Json} :
    (j.member? key).bind Json.string? = some t ↔ HasMember key (.string t) j := by
  rw [Option.bind_eq_some_iff]
  constructor
  · rintro ⟨v, hv, ht⟩
    cases v <;> simp [Json.string?] at ht
    subst ht
    exact Json.member?_eq_some_iff.1 hv
  · intro h
    exact ⟨_, Json.member?_eq_some_iff.2 h, rfl⟩

theorem member_string_eq_none_iff {key : String} {j : Json} :
    (j.member? key).bind Json.string? = none ↔ ∀ t, ¬ HasMember key (.string t) j := by
  simp only [Option.eq_none_iff_forall_ne_some, ne_eq, member_string_eq_some_iff]

theorem ofNumber_of_fits {n : Nat} (h : n ≤ 65535) :
    ofNumber (some (.number (.int n))) = Status.ofHttp n := by
  have hfits : 0 ≤ (n : Int) ∧ (n : Int) < 0x10000 := by omega
  rw [ofNumber, if_pos hfits, Int.toNat_natCast]

theorem ofNumber_eq_unknown {code : Option Json}
    (h : ∀ n : Nat, n ≤ 65535 → code ≠ some (.number (.int n))) : ofNumber code = .unknown := by
  unfold ofNumber
  split
  · next i =>
    refine if_neg fun ⟨hlow, hhigh⟩ => h i.toNat (by omega) ?_
    rw [Int.toNat_of_nonneg hlow]
  · rfl

theorem StatusOf.statusOf_eq {error : Json} {status : Status} (h : StatusOf error status) :
    statusOf error = status := by
  unfold statusOf
  cases h with
  | word hword hstatus =>
    rw [member_string_eq_some_iff.2 hword]
    exact Status.ofService_eq_iff.2 hstatus
  | number hword hcode hn hstatus =>
    rw [member_string_eq_none_iff.2 hword, Json.member?_eq_some_iff.2 hcode]
    exact (ofNumber_of_fits hn).trans (Status.ofHttp_eq_iff.2 hstatus)
  | neither hword hcode =>
    rw [member_string_eq_none_iff.2 hword]
    exact ofNumber_eq_unknown fun n hn heq => hcode n hn (Json.member?_eq_some_iff.1 heq)

theorem statusOf_self (error : Json) : StatusOf error (statusOf error) := by
  unfold statusOf
  split
  · next word hword =>
    exact .word (member_string_eq_some_iff.1 hword) (Status.ofService_eq_iff.1 rfl)
  · next hnone =>
    have hword := member_string_eq_none_iff.1 hnone
    by_cases hcode : ∃ n : Nat, n ≤ 65535 ∧ error.member? "code" = some (.number (.int n))
    · obtain ⟨n, hn, hcode⟩ := hcode
      rw [hcode, ofNumber_of_fits hn]
      exact .number hword (Json.member?_eq_some_iff.1 hcode) hn (Status.ofHttp_eq_iff.1 rfl)
    · rw [ofNumber_eq_unknown fun n hn heq => hcode ⟨n, hn, heq⟩]
      exact .neither hword fun n hn h => hcode ⟨n, hn, Json.member?_eq_some_iff.2 h⟩

/-- Every error has one status. -/
theorem statusOf_eq_iff {error : Json} {status : Status} :
    statusOf error = status ↔ StatusOf error status :=
  ⟨fun h => h ▸ statusOf_self error, StatusOf.statusOf_eq⟩

/-- Every error has one message. -/
theorem messageOf_eq_iff {error : Json} {message : String} :
    messageOf error = message ↔ MessageOf error message := by
  unfold messageOf
  cases hown : (error.member? "message").bind Json.string? with
  | some own =>
    have hmember := member_string_eq_some_iff.1 hown
    constructor
    · rintro rfl
      exact .own hmember
    · intro h
      cases h with
      | own h => exact Option.some.inj (hown.symm.trans (member_string_eq_some_iff.2 h))
      | whole h => exact absurd hmember (h own)
  | none =>
    have hnone := member_string_eq_none_iff.1 hown
    constructor
    · intro h
      exact .whole hnone (Json.compact_iff.2 h)
    · intro h
      cases h with
      | own h => exact absurd h (hnone message)
      | whole _ hmessage => exact Json.compact_iff.1 hmessage

/-! ## Bodies -/

theorem ofBody_of_error {body error : Json} (h : HasMember "error" error body) :
    ofBody body = ⟨statusOf error, messageOf error⟩ := by
  rw [ofBody, Json.member?_eq_some_iff.2 h]

theorem ofBody_of_noError {body : Json} (h : ∀ error, ¬ HasMember "error" error body) :
    ofBody body = ⟨.unknown, body.sorted.text⟩ := by
  have hnone : body.member? "error" = none :=
    Option.eq_none_iff_forall_ne_some.2 fun error heq => h error (Json.member?_eq_some_iff.1 heq)
  rw [ofBody, hnone]

theorem ofBody_eq_iff {body : Json} {f : Failure} : ofBody body = f ↔ TellsOf body f := by
  constructor
  · rintro rfl
    by_cases herror : ∃ error, HasMember "error" error body
    · obtain ⟨error, herror⟩ := herror
      rw [ofBody_of_error herror]
      exact .error herror (statusOf_eq_iff.1 rfl) (messageOf_eq_iff.1 rfl)
    · have hnone := not_exists.1 herror
      rw [ofBody_of_noError hnone]
      exact .noError hnone (Json.compact_iff.2 rfl)
  · intro h
    cases h with
    | error herror hstatus hmessage =>
      rw [ofBody_of_error herror, statusOf_eq_iff.2 hstatus, messageOf_eq_iff.2 hmessage]
    | noError hnone hmessage => rw [ofBody_of_noError hnone, Json.compact_iff.1 hmessage]

/-- `n` is only written as its digits. -/
theorem plain_of_value {t : Json.NumberToken} {rest : Bytes} {n : Nat}
    (h : t.value rest = .ok (.int n)) :
    t.negative = false ∧ t.fraction = [] ∧ t.exponent = none := by
  obtain ⟨hfraction, hexponent, -, ⟨hsign, -⟩ | ⟨-, hpos, -, hn⟩⟩ :=
    Json.NumberToken.int?_eq_some_iff.1 (Json.value_eq_int_iff.1 h)
  · exact ⟨hsign, hfraction, hexponent⟩
  · omega

/-- A status that no word has given comes from the number of a failed request. -/
theorem exists_number_of_statusOf {error : Json}
    (hword : ∀ word, ¬ HasMember "status" (.string word) error) (h : statusOf error ≠ .unknown) :
    ∃ n : Nat, 400 ≤ n ∧ n ≤ 599 ∧ Status.MeansOf n (statusOf error) ∧
      HasMember "code" (.number (.int n)) error := by
  generalize hstatus : statusOf error = status at h
  cases statusOf_eq_iff.1 hstatus with
  | word hmember => exact absurd hmember (hword _)
  | neither => exact absurd rfl h
  | @number n _ _ hcode _ hmeans =>
    obtain ⟨hlow, hhigh⟩ := hmeans.bounds h
    exact ⟨n, hlow, hhigh, hmeans, hcode⟩

/-- An error whose word and whose message are no texts. -/
def forbidden : Json :=
  .object [("message", .number (.int 7)), ("status", .null), ("code", .number (.int 403))]

/-- An error with a word, a message and a number that says something else. -/
def gone : Json :=
  .object [("code", .number (.int 403)), ("message", .string "no \"s\""),
    ("status", .string "NOT_FOUND")]

/-- A number is not cut to sixteen bits. -/
example : (ofBody (.object [("error", .object [("code", .number (.int 65939))])])).status =
    .unknown := by decide

end Failure

end SecretMount.Backend
