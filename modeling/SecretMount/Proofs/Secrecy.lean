import SecretMount.Proofs.Collection
import SecretMount.Proofs.Lockstep

/-!
# What logs tell of payloads

Two runs whose payloads differ, but whose entries all end in the same way, log the same events,
except that the text of an error quotes what a decoder says of a payload.

* `Payload.Fault.decoderText?` : what a decoder says of a payload. The message of a fault quotes it
  and tells nothing else of the payload (`Payload.Fault.message_eq_iff`);
* `Mount.SameEnd` : two ends of an entry that a log should not tell apart;
* `Mount.Outcome.Alike` : what is then known of both ends (`Mount.settle_alike`);
* `Mount.failureEvents_eq_iff`, `Mount.logs_agree_iff` : the logs agree exactly when the decoders
  say the same.
-/

namespace SecretMount

/-! ## Faults of payloads -/

namespace Payload

namespace Fault

/-- Faults of one kind, whatever they tell. -/
inductive SameVariant : Fault → Fault → Prop
  | base64 (f g : Base64.Fault) : SameVariant (.base64 f) (.base64 g)
  | json (f g : Json.Fault) : SameVariant (.json f) (.json g)
  | yaml (f g : Yaml.Fault) : SameVariant (.yaml f) (.yaml g)
  | missingKey (e e' : Extraction) : SameVariant (.missingKey e) (.missingKey e')
  | notScalar (e e' : Extraction) : SameVariant (.notScalar e) (.notScalar e')

/-- What a decoder says of the payload. -/
def decoderText? : Fault → Option String
  | base64 f => some f.message
  | json f => some f.message
  | yaml f => some f.message
  | missingKey _ | notScalar _ => none

/-- The faults of payloads from which `extraction` is wanted. -/
inductive Of (extraction : Option Extraction) : Fault → Prop
  | base64 (f : Base64.Fault) : Of extraction (.base64 f)
  | json (f : Json.Fault) : Of extraction (.json f)
  | yaml (f : Yaml.Fault) : Of extraction (.yaml f)
  | missingKey {e : Extraction} (h : extraction = some e) : Of extraction (.missingKey e)
  | notScalar {e : Extraction} (h : extraction = some e) : Of extraction (.notScalar e)

/-- Beside what a decoder says, messages of one variant say the same. -/
theorem message_eq_iff {extraction : Option Extraction} {a b : Fault} (ha : a.Of extraction)
    (hb : b.Of extraction) (h : a.SameVariant b) :
    a.message = b.message ↔ a.decoderText? = b.decoderText? := by
  cases h with
  | base64 | json | yaml =>
    unfold message
    rw [String.append_right_inj, decoderText?, decoderText?, Option.some.injEq]
  | missingKey =>
    cases ha with | missingKey ha =>
    cases hb with | missingKey hb =>
    cases ha.symm.trans hb
    exact iff_of_true rfl rfl
  | notScalar =>
    cases ha with | notScalar ha =>
    cases hb with | notScalar hb =>
    cases ha.symm.trans hb
    exact iff_of_true rfl rfl

end Fault

variable {payload : Bytes} {fault : Fault} {key : String}

theorem of_jsonScalar {member : Option Json} (h : jsonScalar key member = .error fault) :
    fault.Of (some ⟨.json, key⟩) := by
  unfold jsonScalar at h
  split at h <;> cases h
  · exact .missingKey rfl
  · exact .missingKey rfl
  · exact .notScalar rfl
  · exact .notScalar rfl

theorem of_yamlScalar {member : Option Yaml.Value} (h : yamlScalar key member = .error fault) :
    fault.Of (some ⟨.yaml, key⟩) := by
  unfold yamlScalar at h
  split at h <;> cases h
  · exact .missingKey rfl
  · exact .missingKey rfl
  · exact .notScalar rfl
  · exact .notScalar rfl
  · exact .notScalar rfl

theorem of_extract {e : Extraction} (h : extract payload e = .error fault) :
    fault.Of (some e) := by
  obtain ⟨format, key⟩ := e
  cases format with
  | json =>
    rcases bind_eq_error_iff.1 h with hdocument | ⟨document, -, h⟩
    · obtain ⟨f, -, rfl⟩ := mapError_eq_error_iff.1 hdocument
      exact .json f
    · rcases bind_eq_error_iff.1 h with htext | ⟨text, -, h⟩
      · exact of_jsonScalar htext
      · cases h
  | yaml =>
    rcases bind_eq_error_iff.1 h with hdocument | ⟨document, -, h⟩
    · obtain ⟨f, -, rfl⟩ := mapError_eq_error_iff.1 hdocument
      exact .yaml f
    · rcases bind_eq_error_iff.1 h with htext | ⟨text, -, h⟩
      · exact of_yamlScalar htext
      · cases h

/-- A fault names no other key than the one that is wanted. -/
theorem of_transform {encoding : Option Encoding} {extraction : Option Extraction}
    (h : transform payload encoding extraction = .error fault) : fault.Of extraction := by
  cases encoding with
  | none =>
    cases extraction with
    | none => cases h
    | some e => exact of_extract h
  | some encoding =>
    cases encoding
    rcases bind_eq_error_iff.1 h with hdecoded | ⟨decoded, -, h⟩
    · obtain ⟨f, -, rfl⟩ := mapError_eq_error_iff.1 hdecoded
      exact .base64 f
    · cases extraction with
      | none => cases h
      | some e => exact of_extract h

end Payload

namespace Mount

open Backend

/-! ## Ends of entries -/

/-- Causes of one kind, whatever they tell. -/
inductive Cause.SameVariant : Cause → Cause → Prop
  | name (f g : VersionName.Fault) : SameVariant (.name f) (.name g)
  | noDestination : SameVariant .noDestination .noDestination
  | unrouted (l m : String) : SameVariant (.unrouted l) (.unrouted m)
  | backend (f g : Backend.Failure) : SameVariant (.backend f) (.backend g)
  | unresolved (s t : String) : SameVariant (.unresolved s) (.unresolved t)
  | payload {f g : Payload.Fault} (h : f.SameVariant g) : SameVariant (.payload f) (.payload g)
  | cancelled : SameVariant .cancelled .cancelled
  | timeout (l m : Nat) : SameVariant (.timeout l) (.timeout m)

/-- Ends that a log should not tell apart: files of one size, or failures of one variant. -/
inductive SameEnd : Outcome → Outcome → Prop
  | resolved {r s : Resolved} (h : r.file.contents.length = s.file.contents.length) :
      SameEnd (.ok r) (.ok s)
  | failed {c d : Cause} (h : c.SameVariant d) : SameEnd (.error c) (.error d)

/-- What a decoder says of the payload of an entry. -/
def Outcome.decoderText? : Outcome → Option String
  | .error (.payload fault) => fault.decoderText?
  | _ => none

/-- Ends of one entry that differ in bytes of its file or in what a decoder says. -/
inductive Outcome.Alike : Outcome → Outcome → Prop
  | resolved (version : ObjectVersion) (path : String) (mode : Mode) {contents contents' : Bytes}
      (h : contents.length = contents'.length) :
      Alike (.ok ⟨version, ⟨path, mode, contents⟩⟩) (.ok ⟨version, ⟨path, mode, contents'⟩⟩)
  | failed (cause : Cause) : Alike (.error cause) (.error cause)
  | payload {f g : Payload.Fault} (h : f.message = g.message ↔ f.decoderText? = g.decoderText?) :
      Alike (.error (.payload f)) (.error (.payload g))

theorem Outcome.Alike.sameResolved {o o' : Outcome} (h : Outcome.Alike o o') :
    SameResolved o o' := by
  cases h with
  | resolved version path mode h => simp only [SameResolved, resolvedEvents, h]
  | failed | payload => rfl

/-- Answers that differ in bytes have ends that differ in what becomes of the bytes. -/
theorem resolve_alike {e : Entry} {permissions : Mode} {a b : Answer} (h : SameName a b)
    (hend : SameEnd (resolve e permissions a) (resolve e permissions b)) :
    Outcome.Alike (resolve e permissions a) (resolve e permissions b) := by
  cases h with
  | failure => exact .failed _
  | served name data data' =>
    cases hversion : Fetch.concreteVersion? name with
    | none =>
      simp only [resolve_eq, hversion]
      exact .failed _
    | some version =>
      cases ha : Payload.transform data e.encoding e.extraction with
      | ok contents =>
        cases hb : Payload.transform data' e.encoding e.extraction with
        | ok contents' =>
          simp only [resolve_eq, hversion, ha, hb] at hend ⊢
          cases hend with
          | resolved h => exact .resolved _ _ _ h
        | error g =>
          simp only [resolve_eq, hversion, ha, hb] at hend
          cases hend
      | error f =>
        cases hb : Payload.transform data' e.encoding e.extraction with
        | ok contents' =>
          simp only [resolve_eq, hversion, ha, hb] at hend
          cases hend
        | error g =>
          simp only [resolve_eq, hversion, ha, hb] at hend ⊢
          cases hend with
          | failed h =>
            cases h with
            | payload h =>
              exact .payload (Payload.Fault.message_eq_iff (Payload.of_transform ha)
                (Payload.of_transform hb) h)

variable {t u : RoutingTable Handle} {permissions : Mode} {timeout : Option Nat}

theorem settle_alike (htable : t.Alike u) {e : Entry}
    (hend : SameEnd (settle t permissions timeout e) (settle u permissions timeout e)) :
    Outcome.Alike (settle t permissions timeout e) (settle u permissions timeout e) := by
  rcases route_alike htable e with ⟨cause, ht, hu⟩ | ⟨name, handle, other, ht, hu, halike⟩
  · simp only [settle, ht, hu]
    exact .failed cause
  · simp only [settle, ht, hu, halike.latency] at hend ⊢
    cases hlimit : timeout.filter (· < other.latency name.text) with
    | some limit => exact .failed _
    | none =>
      rw [hlimit] at hend
      exact resolve_alike (halike.answer _) hend

/-! ## Logs -/

/-- The failures among `outcomes` when the first entry has the index `n`. -/
def failuresFrom (n : Nat) (entries : List Entry) (outcomes : List Outcome) : List EntryFailure :=
  ((entries.zip outcomes).zipIdx n).filterMap fun ((e, outcome), index) => failure? index e outcome

theorem failuresFrom_ok (n : Nat) (e : Entry) (entries : List Entry) (r : Resolved)
    (outcomes : List Outcome) :
    failuresFrom n (e :: entries) (.ok r :: outcomes) = failuresFrom (n + 1) entries outcomes :=
  rfl

theorem failuresFrom_error (n : Nat) (e : Entry) (entries : List Entry) (cause : Cause)
    (outcomes : List Outcome) :
    failuresFrom n (e :: entries) (.error cause :: outcomes) =
      ⟨n, e.resourceName, cause⟩ :: failuresFrom (n + 1) entries outcomes :=
  rfl

/-- The event without the texts of errors. -/
def withoutErrors (e : Log.Event) : Log.Event :=
  { e with fields := e.fields.filter (·.1 ≠ "error") }

variable {span : Log.Span}

theorem failureEvent_payload_eq_iff {n : Nat} {name : String} {f g : Payload.Fault} :
    (failureEvent ⟨n, name, .payload f⟩).within span =
        (failureEvent ⟨n, name, .payload g⟩).within span ↔ f.message = g.message := by
  constructor
  · intro h
    have herror := congrArg (fun event : Log.Event => event.fields.getLast?.map Prod.snd) h
    exact Option.some.inj herror
  · intro h
    show (Log.Event.free .warn _ [_, _, _, ("error", f.message)]).within _ = _
    rw [h]
    rfl

/-- The events about failures are the same when decoders say the same, entry by entry. -/
theorem failureEvents_eq_iff {outcomes others : List Outcome}
    (h : List.Forall₂ Outcome.Alike outcomes others) (n : Nat) {entries : List Entry}
    (hlen : outcomes.length = entries.length) :
    (failuresFrom n entries outcomes).map (fun f => (failureEvent f).within span) =
        (failuresFrom n entries others).map (fun f => (failureEvent f).within span) ↔
      outcomes.map Outcome.decoderText? = others.map Outcome.decoderText? := by
  -- an entry that succeeds adds no event and has no text, so the heads count only if both fail
  induction h generalizing n entries with
  | nil => simp [failuresFrom]
  | cons hend _ ih =>
    cases entries with
    | nil => cases hlen
    | cons e entries =>
      have htail := ih (n + 1) (Nat.succ.inj hlen)
      rw [List.map_cons, List.map_cons, List.cons_eq_cons, ← htail]
      cases hend with
      | resolved =>
        rw [failuresFrom_ok, failuresFrom_ok]
        exact (and_iff_right rfl).symm
      | failed cause =>
        rw [failuresFrom_error, failuresFrom_error, List.map_cons, List.map_cons, List.cons_eq_cons]
        exact and_congr_left' (iff_of_true rfl rfl)
      | payload hmessage =>
        rw [failuresFrom_error, failuresFrom_error, List.map_cons, List.map_cons, List.cons_eq_cons,
          failureEvent_payload_eq_iff, hmessage]
        rfl

theorem failureEvents_withoutErrors {outcomes others : List Outcome}
    (h : List.Forall₂ Outcome.Alike outcomes others) (n : Nat) (entries : List Entry) :
    (failuresFrom n entries outcomes).map
        (fun f => withoutErrors ((failureEvent f).within span)) =
      (failuresFrom n entries others).map
        (fun f => withoutErrors ((failureEvent f).within span)) := by
  induction h generalizing n entries with
  | nil => rfl
  | cons hend _ ih =>
    cases entries with
    | nil => rfl
    | cons e entries =>
      have htail := ih (n + 1) entries
      cases hend with
      | resolved =>
        rw [failuresFrom_ok, failuresFrom_ok]
        exact htail
      | failed | payload =>
        rw [failuresFrom_error, failuresFrom_error, List.map_cons, List.map_cons]
        exact List.cons_eq_cons.2 ⟨rfl, htail⟩

/-- What is logged at the end depends on the number of failures only. -/
theorem resultEvent_congr {entries : List Entry} {outcomes others : List Outcome} (total : Nat)
    (h : (failures entries outcomes).length = (failures entries others).length) :
    resultEvent total (result entries outcomes) = resultEvent total (result entries others) := by
  rw [result_eq, result_eq]
  simp only [← List.length_eq_zero_iff, h]
  split
  · rfl
  · simp only [resultEvent, Failure.size, h]

variable {request : Request}

theorem report_agree_iff {p q : Progress} (hevents : p.events = q.events)
    (houtcomes : List.Forall₂ Outcome.Alike p.outcomes q.outcomes)
    (hlen : p.outcomes.length = request.entries.length) (elapsed elapsed' : Nat) :
    (report request p elapsed).events.map withoutErrors =
        (report request q elapsed').events.map withoutErrors ∧
      ((report request p elapsed).events = (report request q elapsed').events ↔
        p.outcomes.map Outcome.decoderText? = q.outcomes.map Outcome.decoderText?) := by
  have hfailures : (failures request.entries p.outcomes).map
        (fun f => withoutErrors ((failureEvent f).within (Mount.span request))) =
      (failures request.entries q.outcomes).map
        (fun f => withoutErrors ((failureEvent f).within (Mount.span request))) :=
    failureEvents_withoutErrors houtcomes 0 request.entries
  have hcount := congrArg List.length hfailures
  rw [List.length_map, List.length_map] at hcount
  have hresult := resultEvent_congr request.entries.length hcount
  constructor
  · simp only [report, hevents, hresult, List.map_append, List.map_map, Function.comp_def,
      hfailures]
  · rw [← failureEvents_eq_iff houtcomes 0 hlen]
    simp only [report, hevents, hresult, List.map_append, List.map_map, Function.comp_def,
      List.append_cancel_left_eq, List.append_cancel_right_eq]
    exact Iff.rfl

/-- **Logs tell of payloads what decoders say of them, and nothing else.** Two fleets that differ
only in the bytes of payloads are given one request, and each of its entries ends in the same way in
both runs. Then the logs agree but for the texts of errors, and they agree in all exactly when
decoders say the same in both runs. -/
theorem logs_agree_iff {f g : Fleet} (hfleet : f.Alike g) (table : RoutingTable Nat)
    (limits : Limits)
    (hends : List.Forall₂ SameEnd (clocked (table.map f.handle) request limits none).outcomes
      (clocked (table.map g.handle) request limits none).outcomes) :
    (run (table.map f.handle) request limits none).events.map withoutErrors =
        (run (table.map g.handle) request limits none).events.map withoutErrors ∧
      ((run (table.map f.handle) request limits none).events =
          (run (table.map g.handle) request limits none).events ↔
        (clocked (table.map f.handle) request limits none).outcomes.map Outcome.decoderText? =
          (clocked (table.map g.handle) request limits none).outcomes.map Outcome.decoderText?) := by
  have htable := hfleet.table table
  have halike : ∀ e ∈ request.entries,
      Outcome.Alike (settle (table.map f.handle) request.permissions limits.timeout e)
        (settle (table.map g.handle) request.permissions limits.timeout e) := by
    rw [outcomes_clocked, outcomes_clocked, List.forall₂_map_left_iff, List.forall₂_map_right_iff,
      List.forall₂_same] at hends
    exact fun e he => settle_alike htable (hends e he)
  have hstep : Progress.InStep (clocked (table.map f.handle) request limits none)
      (clocked (table.map g.handle) request limits none) :=
    inStep_clocked htable fun e he => (halike e he).sameResolved
  refine report_agree_iff hstep.events ?_ ?_ _ _
  · rw [outcomes_clocked, outcomes_clocked, List.forall₂_map_left_iff, List.forall₂_map_right_iff,
      List.forall₂_same]
    exact halike
  · rw [outcomes_clocked, List.length_map]

/-- A fleet with one secret. -/
def vault (payload : Bytes) : Fleet :=
  ⟨[.memory ((Memory.new "memory" 0).addVersion "projects/p/secrets/s" payload).1]⟩

theorem vault_alike (payload payload' : Bytes) : (vault payload).Alike (vault payload') :=
  .cons (.memory ((Memory.Alike.refl _).addVersion _ _ _)) .nil

/-- Payloads of one size that are mounted as they are leave the same log. -/
theorem logs_agree_iff_plain :
    let entry := Entry.new "projects/p/secrets/s/versions/latest" "a"
    let request : Request := ⟨[entry], 0, ⟨"", "", "", ""⟩, ""⟩
    let table : RoutingTable Nat := .ofGeneral 0
    let outcomes := fun f : Fleet => (clocked (table.map f.handle) request .standard none).outcomes
    let events := fun f : Fleet => (run (table.map f.handle) request .standard none).events
    (vault [7]).Alike (vault [9]) ∧
      List.Forall₂ SameEnd (outcomes (vault [7])) (outcomes (vault [9])) ∧
      events (vault [7]) = events (vault [9]) := by
  intro entry request table outcomes events
  have hfleet := vault_alike [7] [9]
  have hends : List.Forall₂ SameEnd (outcomes (vault [7])) (outcomes (vault [9])) := by
    let resolved := fun contents : Bytes => (⟨⟨"projects/p/secrets/s/versions/latest",
      "projects/p/secrets/s/versions/1"⟩, ⟨"a", 0, contents⟩⟩ : Resolved)
    have hleft : outcomes (vault [7]) = [.ok (resolved [7])] := by decide +kernel
    have hright : outcomes (vault [9]) = [.ok (resolved [9])] := by decide +kernel
    rw [hleft, hright]
    exact .cons (.resolved rfl) .nil
  exact ⟨hfleet, hends, (logs_agree_iff hfleet table .standard hends).2.2 (by decide +kernel)⟩

/-- The text of an error quotes a byte of a payload that is not in base64. -/
theorem logs_differ_for_base64 :
    let entry : Entry :=
      { Entry.new "projects/p/secrets/s/versions/1" "a" with encoding := some .base64 }
    let request : Request := ⟨[entry], 0, ⟨"", "", "", ""⟩, ""⟩
    let table : RoutingTable Nat := .ofGeneral 0
    let outcomes := fun f : Fleet => (clocked (table.map f.handle) request .standard none).outcomes
    let events := fun f : Fleet => (run (table.map f.handle) request .standard none).events
    (vault [33]).Alike (vault [63]) ∧
      List.Forall₂ SameEnd (outcomes (vault [33])) (outcomes (vault [63])) ∧
      events (vault [33]) ≠ events (vault [63]) := by
  intro entry request table outcomes events
  have hends : List.Forall₂ SameEnd (outcomes (vault [33])) (outcomes (vault [63])) := by
    have hleft : outcomes (vault [33]) = [.error (.payload (.base64 (.symbol 33 0)))] := by
      decide +kernel
    have hright : outcomes (vault [63]) = [.error (.payload (.base64 (.symbol 63 0)))] := by
      decide +kernel
    rw [hleft, hright]
    exact .cons (.failed (.payload (.base64 _ _))) .nil
  exact ⟨vault_alike [33] [63], hends, by decide +kernel⟩

end Mount

end SecretMount
