import SecretMount.Proofs.Entries
import SecretMount.Proofs.Integers
import SecretMount.Proofs.Listing

/-!
# Which requests are accepted

* `RawRequest.permissions?_eq_some_iff` : permissions are the decimal text of a mode;
* `RawRequest.attributes?_eq_some_iff` : attributes are an object of texts, of which the last value
  of a key counts;
* `RawRequest.Reads` : the request that three texts describe, checked or not;
* `Mount.parse_accepts_exactly` : it is accepted when it has entries and all are sound, and nothing
  else is.
-/

namespace SecretMount

namespace Text

/-- The white space of JSON texts is made up of blanks. -/
theorem exists_blanks {s : Bytes} (h : Json.Blank s) :
    ∃ cs : List Char, (∀ c ∈ cs, c ∈ blanks) ∧ cs.flatMap String.utf8EncodeChar = s := by
  induction s with
  | nil => exact ⟨[], by simp, rfl⟩
  | cons b r ih =>
    obtain ⟨hb, hr⟩ := List.forall_mem_cons.1 h
    obtain ⟨cs, hcs, hencode⟩ := ih hr
    obtain ⟨c, hc, hbyte⟩ : ∃ c, c ∈ blanks ∧ String.utf8EncodeChar c = [b] := by
      rcases hb with rfl | rfl | rfl | rfl
      · exact ⟨' ', by decide, by decide⟩
      · exact ⟨'\n', by decide, by decide⟩
      · exact ⟨'\t', by decide, by decide⟩
      · exact ⟨'\r', by decide, by decide⟩
    refine ⟨c :: cs, List.forall_mem_cons.2 ⟨hc, hcs⟩, ?_⟩
    rw [List.flatMap_cons, hbyte, hencode]
    rfl

end Text

namespace Mount

/-! ## Modes -/

namespace Entry

theorem modeOfJson?_eq_some_iff {j : Json} {m : Mode} :
    modeOfJson? j = some m ↔ j = .number (.int m.toInt) := by
  unfold modeOfJson?
  rw [Option.bind_eq_some_iff]
  simp only [modeOfInt?_eq_some_iff]
  constructor
  · rintro ⟨i, hi, rfl⟩
    unfold Json.int? at hi
    split at hi
    · cases hi
      rfl
    · cases hi
  · rintro rfl
    exact ⟨_, rfl, rfl⟩

end Entry

namespace RawRequest

/-- **Permissions are the decimal text of a mode, with or without blanks around it.** -/
theorem permissions?_eq_some_iff {text : String} {m : Mode} :
    permissions? text = some m ↔ Text.Trims text (toString m.toInt) := by
  rw [Text.trims_iff]
  have hjson : permissions? text = some m ↔
      Json.parse (Text.encode (Text.trim text)) = .ok (.number (.int m.toInt)) := by
    unfold permissions?
    cases Json.parse (Text.encode (Text.trim text)) with
    | error fault => simp
    | ok j => simp [Entry.modeOfJson?_eq_some_iff]
  rw [hjson, Json.parse_eq_int_iff]
  constructor
  · rintro ⟨-, before, after, hbefore, hafter, hencode⟩
    obtain ⟨cs, hcs, rfl⟩ := Text.exists_blanks hbefore
    obtain ⟨ds, hds, rfl⟩ := Text.exists_blanks hafter
    have htext : Text.trim text = String.ofList (cs ++ (toString m.toInt).toList ++ ds) := by
      refine Text.encode_injective (hencode.trans ?_)
      simp only [Text.encode, String.toList_ofList, List.flatMap_append]
    obtain ⟨rfl, rfl⟩ :=
      (Text.trimmed_trim text).eq_nil (by rw [htext, String.toList_ofList]) hcs hds
    simpa using htext
  · intro h
    have hlow := Int32.le_toInt m
    have hhigh := Int32.toInt_lt m
    have hmax : Numeral.max64 = 0xFFFFFFFFFFFFFFFF := rfl
    refine ⟨⟨by omega, by omega⟩, [], [], by simp [Json.Blank], by simp [Json.Blank], ?_⟩
    rw [h, List.nil_append, List.append_nil]

/-! ## Attributes -/

/-- The object of these texts. -/
def object (attributes : List (String × String)) : Json :=
  .object (attributes.map fun a => (a.1, .string a.2))

/-- The last value of `k`. -/
def lastValue? (attributes : List (String × String)) (k : String) : Option String :=
  attributes.reverse.lookup k

theorem mapM_attribute?_eq_some_iff {members : List (String × Json)}
    {attributes : List (String × String)} :
    members.mapM attribute? = some attributes ↔
      members = attributes.map fun a => (a.1, .string a.2) := by
  have hone : ∀ {member : String × Json} {a : String × String},
      attribute? member = some a ↔ member = (a.1, .string a.2) := by
    intro member a
    unfold attribute?
    split
    · simp [Prod.ext_iff, eq_comm]
    · next hne =>
      simp only [reduceCtorEq, false_iff]
      exact hne _ _
  induction members generalizing attributes with
  | nil => cases attributes <;> simp
  | cons member r ih =>
    rw [List.mapM_cons]
    simp only [Option.bind_eq_bind, Option.bind_eq_some_iff, hone, ih, Option.pure_def]
    constructor
    · rintro ⟨a, rfl, l, rfl, h⟩
      cases h
      rfl
    · intro h
      cases attributes with
      | nil => cases h
      | cons a l =>
        obtain ⟨rfl, rfl⟩ := List.cons.inj h
        exact ⟨a, rfl, l, rfl, rfl⟩

/-- Attributes are an object of texts. -/
theorem attributes?_eq_some_iff {text : String} {table : Table String} :
    attributes? text = some table ↔ ∃ attributes,
      Json.TextOf (object attributes) (Text.encode text) ∧ table = Table.ofList attributes := by
  simp only [← Json.parse_eq_ok_iff]
  unfold attributes?
  constructor
  · intro h
    split at h
    · next members hparse =>
      obtain ⟨attributes, hmembers, rfl⟩ := Option.map_eq_some_iff.1 h
      rw [mapM_attribute?_eq_some_iff.1 hmembers] at hparse
      exact ⟨attributes, hparse, rfl⟩
    · cases h
  · rintro ⟨attributes, hparse, rfl⟩
    simp only [hparse, object, mapM_attribute?_eq_some_iff.2 rfl, Option.map_some]

/-! ## Requests -/

/-- `raw` describes `request`, checked or not. Its attributes are these, which may repeat keys. -/
structure Reads (raw : RawRequest) (attributes : List (String × String)) (request : Request) :
    Prop where
  document : Json.TextOf (object attributes) (Text.encode raw.attributes)
  permissions : Text.Trims raw.permissions (toString request.permissions.toInt)
  entries : ∃ text, lastValue? attributes "secrets" = some text ∧
    Lists text request.entries
  pod : request.pod =
    { namespaceName := (lastValue? attributes "csi.storage.k8s.io/pod.namespace").getD ""
      name := (lastValue? attributes "csi.storage.k8s.io/pod.name").getD ""
      uid := (lastValue? attributes "csi.storage.k8s.io/pod.uid").getD ""
      serviceAccount := (lastValue? attributes "csi.storage.k8s.io/serviceAccount.name").getD "" }
  targetPath : request.targetPath = raw.targetPath

theorem elim_eq_ok_iff {α ε : Type} {x : Option α} {e : ε} {a : α} :
    x.elim (Except.error e) Except.ok = .ok a ↔ x = some a := by
  cases x <;> simp

/-- When a request is read, only its entries can be at fault. -/
theorem parse_of_reads {raw : RawRequest} {attributes : List (String × String)} {request : Request}
    (h : raw.Reads attributes request) : ∃ text, readEntries? text = some request.entries ∧
      raw.parse = ((parseEntries text).mapError .entries).map
        fun entries => { request with entries } := by
  obtain ⟨text, hvalue, hread⟩ := h.entries
  refine ⟨text, readEntries?_eq_some_iff.2 hread, ?_⟩
  have hattributes := attributes?_eq_some_iff.2 ⟨attributes, h.document, rfl⟩
  have hpermissions := permissions?_eq_some_iff.2 h.permissions
  have htext : (Table.ofList attributes).get? "secrets" = some text :=
    (Table.get?_ofList attributes "secrets").trans hvalue
  have hpod : RawRequest.pod (Table.ofList attributes) = request.pod := by
    simp only [RawRequest.pod, Table.get?_ofList]
    exact h.pod.symm
  unfold parse
  rw [hattributes, hpermissions]
  simp only [Option.elim, bind, Except.bind, htext]
  cases parseEntries text with
  | error fault => rfl
  | ok entries =>
    simp only [hpod, ← h.targetPath]
    rfl

/-- What is parsed is what is described. -/
theorem reads_of_parse {raw : RawRequest} {request : Request} (h : raw.parse = .ok request) :
    ∃ attributes, raw.Reads attributes request ∧ request.entries ≠ [] ∧
      ∀ e ∈ request.entries, e.Sound := by
  obtain ⟨table, htable, h⟩ := bind_eq_ok_iff.1 h
  obtain ⟨permissions, hpermissions, h⟩ := bind_eq_ok_iff.1 h
  obtain ⟨text, htext, h⟩ := bind_eq_ok_iff.1 h
  obtain ⟨entries, hentries, h⟩ := bind_eq_ok_iff.1 h
  cases h
  have hread := attributes?_eq_some_iff.1 (elim_eq_ok_iff.1 htable)
  obtain ⟨attributes, hdocument, rfl⟩ := hread
  obtain ⟨hentries, hne, hsound⟩ := parseEntries_eq_ok_iff.1 (mapError_eq_ok_iff.1 hentries)
  have hvalue := elim_eq_ok_iff.1 htext
  rw [Table.get?_ofList] at hvalue
  refine ⟨attributes, ⟨hdocument, permissions?_eq_some_iff.1 (elim_eq_ok_iff.1 hpermissions),
    ⟨text, hvalue, readEntries?_eq_some_iff.1 hentries⟩, ?_, rfl⟩, hne, hsound⟩
  simp only [RawRequest.pod, Table.get?_ofList]
  rfl

end RawRequest

/-- **Which requests are accepted.** A request is accepted exactly when its three texts describe it,
it has entries and all of these are sound; it is what they describe. Any other request is refused,
and when nothing but its entries is at fault, the refusal is about the first that is not sound. -/
theorem parse_accepts_exactly (raw : RawRequest) :
    (∀ request, raw.parse = .ok request ↔ ∃ attributes, raw.Reads attributes request ∧
      request.entries ≠ [] ∧ ∀ e ∈ request.entries, e.Sound) ∧
    ((¬ ∃ request attributes, raw.Reads attributes request ∧
        request.entries ≠ [] ∧ ∀ e ∈ request.entries, e.Sound) →
      ∃ fault, raw.parse = .error fault ∧ fault.refusal.kind = "Config") ∧
    ∀ attributes request i e, raw.Reads attributes request → request.entries[i]? = some e →
      ¬ e.Sound → (∀ j d, j < i → request.entries[j]? = some d → d.Sound) →
      ∃ flaw, e.flaw? = some flaw ∧ raw.parse = .error (.entries (.entry i flaw)) ∧
        (Request.Fault.entries (.entry i flaw)).refusal =
          .config ("secrets[" ++ toString i ++ "]: " ++ flaw.message) := by
  have hiff : ∀ request, raw.parse = .ok request ↔ ∃ attributes, raw.Reads attributes request ∧
      request.entries ≠ [] ∧ ∀ e ∈ request.entries, e.Sound := by
    intro request
    refine ⟨RawRequest.reads_of_parse, ?_⟩
    rintro ⟨attributes, hreads, hne, hsound⟩
    obtain ⟨text, hread, hparse⟩ := RawRequest.parse_of_reads hreads
    rw [hparse, parseEntries_eq_ok_iff.2 ⟨hread, hne, hsound⟩]
    rfl
  refine ⟨hiff, fun hnone => ?_, fun attributes request i e hreads he hflawed hfirst => ?_⟩
  · cases hparse : raw.parse with
    | error fault => exact ⟨fault, rfl, rfl⟩
    | ok request => exact absurd ⟨request, (hiff request).1 hparse⟩ hnone
  · obtain ⟨text, hread, hparse⟩ := RawRequest.parse_of_reads hreads
    obtain ⟨flaw, hflaw, hentries⟩ := parseEntries_of_first hread he hflawed hfirst
    refine ⟨flaw, hflaw, ?_, rfl⟩
    rw [hparse, hentries]
    rfl

/-- A request of which the entries set every field is accepted, and one of which the second entry
sets both keys is refused for that. The name of the pod is given twice. -/
theorem parse_accepts_exactly_second :
    let document (text : String) : String :=
      "\x7b\"csi.storage.k8s.io/pod.name\":\"q\",\"csi.storage.k8s.io/pod.name\":\"p\"," ++
        "\"secrets\":\"- resourceName: a\\n  path: d/x\\n  mode: 0x180\\n  encoding: base64\\n" ++
        "  extractJSONKey: k\\n- resourceName: b\\n  fileName: y\\n  extractYAMLKey: l\\n" ++
        text ++ "\"\x7d"
    let raw (text : String) : RawRequest := ⟨document text, "/mnt", "\u2003420\n"⟩
    let request (entries : List Entry) : Request := ⟨entries, 420, ⟨"", "p", "", ""⟩, "/mnt"⟩
    let first : Entry := ⟨"a", none, some "d/x", some 384, some .base64, some "k", none⟩
    let second : Entry := ⟨"b", some "y", none, none, none, none, some "l"⟩
    let flawed : Entry := ⟨"b", some "y", none, none, none, some "", some "l"⟩
    (∃ attributes, (raw "").Reads attributes (request [first, second])) ∧
      (raw "").parse = .ok (request [first, second]) ∧
      (∃ attributes, (raw "  extractJSONKey: ''").Reads attributes (request [first, flawed])) ∧
      (raw "  extractJSONKey: ''").parse = .error (.entries (.entry 1 .twoKeys)) ∧
      (Request.Fault.entries (.entry 1 .twoKeys)).refusal =
        .config "secrets[1]: only one of extractJSONKey and extractYAMLKey may be set" ∧
      ∃ fault, (raw "  extractJSONKey: ''").parse = .error fault ∧
        fault.refusal.kind = "Config" := by
  intro document raw request first second flawed
  have haccepted : (raw "").parse = .ok (request [first, second]) := by decide +kernel
  obtain ⟨accepted, hreads, -⟩ := ((parse_accepts_exactly (raw "")).1 _).1 haccepted
  let members := [("csi.storage.k8s.io/pod.name", "p"), ("secrets",
    "- resourceName: a\n  path: d/x\n  mode: 0x180\n  encoding: base64\n  extractJSONKey: k\n" ++
      "- resourceName: b\n  fileName: y\n  extractYAMLKey: l\n  extractJSONKey: ''")]
  have htable : (RawRequest.attributes? (document "  extractJSONKey: ''")).map Table.entries =
      some members := by
    decide +kernel
  obtain ⟨table, htable, hmembers⟩ := Option.map_eq_some_iff.1 htable
  obtain ⟨attributes, hdocument, rfl⟩ := RawRequest.attributes?_eq_some_iff.1 htable
  have hvalue : ∀ k, RawRequest.lastValue? attributes k = members.lookup k := by
    intro k
    rw [RawRequest.lastValue?, ← Table.get?_ofList, Table.get?, hmembers]
  have hflawed : (raw "  extractJSONKey: ''").Reads attributes (request [first, flawed]) := by
    refine ⟨hdocument, Text.trims_iff.2 (by decide), ⟨_, hvalue "secrets", ?_⟩, ?_, rfl⟩
    · exact readEntries?_eq_some_iff.1 (by decide +kernel)
    · simp only [hvalue]
      decide
  have hflaw : flawed.flaw? = some .twoKeys := by decide
  have hkeys : ¬ flawed.Sound := mt Entry.flaw?_eq_none_iff.2 (by simp [hflaw])
  have hfirst : ∀ j d, j < 1 → (request [first, flawed]).entries[j]? = some d → d.Sound := by
    intro j d hj hd
    obtain rfl : j = 0 := by omega
    cases hd
    exact Entry.flaw?_eq_none_iff.1 (by decide)
  obtain ⟨hok, hrefused, hnamed⟩ := parse_accepts_exactly (raw "  extractJSONKey: ''")
  obtain ⟨flaw, hsame, hparse, -⟩ := hnamed attributes _ 1 flawed hflawed rfl hkeys hfirst
  cases hflaw.symm.trans hsame
  refine ⟨⟨accepted, hreads⟩, haccepted, ⟨attributes, hflawed⟩, hparse, by decide, hrefused ?_⟩
  rintro ⟨other, hother⟩
  cases hparse.symm.trans ((hok other).2 hother)

end Mount

end SecretMount
