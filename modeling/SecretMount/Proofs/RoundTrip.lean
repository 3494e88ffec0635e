import Mathlib.Data.List.Nodup
import SecretMount.Mount.Response
import SecretMount.Proofs.Admission
import SecretMount.Proofs.Documents

/-!
# Documents read back

What is sent as a JSON document is what is received.

* `Json.fields?_object`, `Json.lastOf?_eq_lookup` : an object in which no key repeats;
* `Json.present` : members that are left out when they have no value. `Json.optional?_map` : these
  are read as no value;
* `Json.Kept` : values that are read from their documents. `Json.Kept.list`, `Json.Kept.record` :
  lists and records of such values, and `Json.Kept.readText?` : the texts of the documents;
* `Mount.Entry.fields` : the values of an entry with their keys;
* `Mount.documents_read_back` : everything that is sent or received as a document.
-/

namespace SecretMount

namespace Json

/-! ## Members -/

theorem lastOf?_eq_lookup {ms : List (String × Json)} (h : (ms.map Prod.fst).Nodup) (k : String) :
    lastOf? k ms = ms.lookup k :=
  Table.lookup_reverse h k

theorem fields?_object (names : List String) {ms : List (String × Json)}
    (h : (ms.map Prod.fst).Nodup) :
    (object ms).fields? names = some fun k => ms.lookup k := by
  have hnone : ¬ (names.any fun k => 2 ≤ (ms.map Prod.fst).count k) = true := by
    rw [List.any_eq_true]
    rintro ⟨k, -, hk⟩
    have hle := List.nodup_iff_count_le_one.1 h k
    rw [decide_eq_true_eq] at hk
    omega
  rw [fields?, if_neg hnone]

/-- The members that have a value. -/
def present (fields : List (String × Option Json)) : List (String × Json) :=
  fields.filterMap fun f => f.2.map fun v => (f.1, v)

theorem sublist_present (fields : List (String × Option Json)) :
    List.Sublist ((present fields).map Prod.fst) (fields.map Prod.fst) := by
  induction fields with
  | nil => exact List.Sublist.refl []
  | cons f fields ih =>
    obtain ⟨l, o⟩ := f
    cases o with
    | none => exact ih.cons l
    | some v => exact ih.cons_cons l

theorem nodup_present {fields : List (String × Option Json)} (h : (fields.map Prod.fst).Nodup) :
    ((present fields).map Prod.fst).Nodup :=
  h.sublist (sublist_present fields)

theorem lookup_present {fields : List (String × Option Json)} (h : (fields.map Prod.fst).Nodup)
    (k : String) : (present fields).lookup k = (fields.lookup k).join := by
  induction fields with
  | nil => rfl
  | cons f fields ih =>
    obtain ⟨l, o⟩ := f
    rw [List.map_cons, List.nodup_cons] at h
    obtain ⟨hnew, hnodup⟩ := h
    rw [Table.lookup_cons]
    split
    · next heq =>
      subst heq
      cases o with
      | none =>
        refine List.lookup_eq_none_iff.2 fun m hm => ?_
        have hkey := (sublist_present fields).subset (List.mem_map_of_mem hm)
        refine bne_iff_ne.2 fun heq => ?_
        rw [heq] at hnew
        exact hnew hkey
      | some v => exact List.lookup_cons_self
    · next hne =>
      rw [← ih hnodup]
      cases o with
      | none => rfl
      | some v => exact (Table.lookup_cons k l v (present fields)).trans (if_neg hne)

theorem forall_mem_present {fields : List (String × Option Json)} {P : String × Json → Prop} :
    (∀ m ∈ present fields, P m) ↔ ∀ f ∈ fields, ∀ v ∈ f.2, P (f.1, v) := by
  simp only [present, List.mem_filterMap, Option.map_eq_some_iff]
  constructor
  · exact fun h f hf v hv => h _ ⟨f, hf, v, hv, rfl⟩
  · rintro h _ ⟨f, hf, v, hv, rfl⟩
    exact h f hf v hv

theorem present_cons (k : String) (o : Option Json) (fields : List (String × Option Json)) :
    present ((k, o) :: fields) = (o.map fun v => (k, v)).toList ++ present fields := by
  cases o <;> rfl

/-! ## Values that are left out, and lists -/

theorem optional?_map {α : Type} {read : Json → Option α} {write : α → Json}
    (hnull : read .null = none) (h : ∀ a, read (write a) = some a) (a : Option α) :
    optional? read (a.map write) = some a := by
  cases a with
  | none => rfl
  | some a =>
    rw [Option.map_some]
    unfold optional?
    split
    · next heq => cases heq
    · next heq =>
      have hread := h a
      rw [Option.some.inj heq, hnull] at hread
      cases hread
    · next heq =>
      cases heq
      rw [h a, Option.map_some]

theorem items?_map {α : Type} {read : Json → Option α} {write : α → Json}
    (h : ∀ a, read (write a) = some a) (l : List α) :
    items? read (.array (l.map write)) = some l := by
  rw [items?]
  induction l with
  | nil => rfl
  | cons a l ih => rw [List.map_cons, List.mapM_cons, h a, ih]; rfl

/-! ## Kept values -/

/-- Every value has a document that `shape` takes as it is, and that is read as the value. -/
structure Kept {α : Type} (depth : Nat) (shape : Shape) (write : α → Json)
    (read : Json → Option α) : Prop where
  covered : ∀ a, Covered depth shape (write a)
  read_write : ∀ a, read (write a) = some a

/-- What is read from a text. -/
def readText? {α : Type} (shape : Shape) (read : Json → Option α) (text : String) : Option α :=
  (parseAs shape (Text.encode text)).toOption.bind read

variable {α : Type} {depth : Nat} {shape inner : Shape} {write : α → Json}
  {read : Json → Option α}

theorem Kept.list (h : Kept depth inner write read) (hitem : ∀ i, shape.item i = inner) :
    Kept (depth + 1) shape (fun l => .array (l.map write)) (items? read) where
  covered l := by
    refine .array fun i v hv => ?_
    rw [List.getElem?_map, Option.map_eq_some_iff] at hv
    obtain ⟨a, -, rfl⟩ := hv
    rw [hitem i]
    exact h.covered a
  read_write := items?_map h.read_write

theorem covered_map {k : String} (hk : shape.member? k = some inner)
    (h : ∀ a, Covered depth inner (write a)) (a : Option α) :
    ∀ v ∈ a.map write, ∃ inner, shape.member? k = some inner ∧ Covered depth inner v := by
  intro v hv
  obtain ⟨b, -, rfl⟩ := Option.map_eq_some_iff.1 hv
  exact ⟨inner, hk, h b⟩

theorem Kept.readText? (h : Kept maxDepth shape write read) (a : α) :
    readText? shape read (write a).text = some a := by
  rw [Json.readText?, parseAs_text (h.covered a)]
  exact h.read_write a

/-- A record is kept if its members have the keys of the record, in their order, each with a value
that is taken as it is, and `fill` finds what it needs. -/
theorem Kept.record {keys : List String} {members : α → List (String × Json)}
    {fill : (String → Option Json) → Option α} (hkeys : keys.Nodup)
    (hmembers : ∀ a, List.Sublist ((members a).map Prod.fst) keys)
    (hvalues : ∀ a, ∀ m ∈ members a, ∃ inner, shape.member? m.1 = some inner ∧
      Covered depth inner m.2)
    (hfill : ∀ a, fill (fun k => (members a).lookup k) = some a) :
    Kept (depth + 1) shape (fun a => .object (members a)) (fun j => (j.fields? keys).bind fill)
    where
  covered a := by
    refine .object (fun m hm => ?_) fun m hm inner hinner => ?_
    · obtain ⟨inner, hinner, -⟩ := hvalues a m hm
      rw [hinner]
      rfl
    · obtain ⟨_, hwith, hcovered⟩ := hvalues a m hm
      cases hwith.symm.trans hinner
      exact hcovered
  read_write a := by
    rw [fields?_object keys (hkeys.sublist (hmembers a))]
    exact hfill a

end Json

namespace Mount

open Json

/-! ## Flat records -/

theorem Pod.kept (depth : Nat) : Kept (depth + 1) Pod.shape Pod.toJson Pod.ofJson? := by
  refine Kept.record (by decide) (fun p => List.Sublist.refl _) (fun p => ?_) (fun p => rfl)
  simp only [List.forall_mem_cons]
  exact ⟨⟨_, rfl, .string _⟩, ⟨_, rfl, .string _⟩, ⟨_, rfl, .string _⟩, ⟨_, rfl, .string _⟩, nofun⟩

theorem RawRequest.kept (depth : Nat) :
    Kept (depth + 1) RawRequest.shape RawRequest.toJson RawRequest.ofJson? := by
  refine Kept.record (by decide) (fun r => List.Sublist.refl _) (fun r => ?_) (fun r => rfl)
  simp only [List.forall_mem_cons]
  exact ⟨⟨_, rfl, .string _⟩, ⟨_, rfl, .string _⟩, ⟨_, rfl, .string _⟩, nofun⟩

theorem ObjectVersion.kept (depth : Nat) :
    Kept (depth + 1) ObjectVersion.shape ObjectVersion.toJson ObjectVersion.ofJson? := by
  refine Kept.record (by decide) (fun v => List.Sublist.refl _) (fun v => ?_) (fun v => rfl)
  simp only [List.forall_mem_cons]
  exact ⟨⟨_, rfl, .string _⟩, ⟨_, rfl, .string _⟩, nofun⟩

/-! ## Modes and bytes -/

theorem read_modeToJson (m : Mode) : Entry.modeOfJson? (Entry.modeToJson m) = some m :=
  Entry.modeOfJson?_eq_some_iff.2 rfl

theorem mode_kept {depth : Nat} {shape : Shape} :
    Kept depth shape Entry.modeToJson Entry.modeOfJson? where
  covered m := by
    have hmax : Numeral.max64 = 0xFFFFFFFFFFFFFFFF := rfl
    have hlow := Int32.le_toInt m
    have hhigh := Int32.toInt_lt m
    exact .integer ⟨by omega, by omega⟩
  read_write := read_modeToJson

theorem byte_kept {depth : Nat} {shape : Shape} :
    Kept depth shape File.byteToJson File.byteOfJson? where
  covered b := by
    have hmax : Numeral.max64 = 0xFFFFFFFFFFFFFFFF := rfl
    have hlt := b.toNat_lt
    exact .integer ⟨by omega, by omega⟩
  read_write b := by
    have hlt := b.toNat_lt
    have hbyte : (0 : Int) ≤ b.toNat ∧ (b.toNat : Int) < 256 := by omega
    unfold File.byteToJson File.byteOfJson? int?
    rw [Option.bind_some, if_pos hbyte, Int.toNat_natCast, UInt8.ofNat_toNat]

/-! ## Files and responses -/

theorem File.kept (depth : Nat) : Kept (depth + 2) File.shape File.toJson File.ofJson? := by
  have hbytes : Kept (depth + 1) .whole _ _ := byte_kept.list fun _ => rfl
  refine Kept.record (by decide) (fun f => List.Sublist.refl _) (fun f => ?_) (fun f => ?_)
  · simp only [List.forall_mem_cons]
    exact ⟨⟨_, rfl, .string _⟩, ⟨_, rfl, mode_kept.covered _⟩, ⟨_, rfl, hbytes.covered _⟩, nofun⟩
  · have hmode := read_modeToJson f.mode
    have hcontents := hbytes.read_write f.contents
    exact Option.bind_eq_some_iff.2 ⟨f.path, rfl, Option.bind_eq_some_iff.2 ⟨f.mode, hmode,
      Option.bind_eq_some_iff.2 ⟨f.contents, hcontents, rfl⟩⟩⟩

theorem Response.kept (depth : Nat) :
    Kept (depth + 4) Response.shape Response.toJson Response.ofJson? := by
  have hversions : Kept (depth + 3) (.listOf ObjectVersion.shape) _ _ :=
    (ObjectVersion.kept (depth + 1)).list fun _ => rfl
  have hfiles : Kept (depth + 3) (.listOf File.shape) _ _ := (File.kept depth).list fun _ => rfl
  refine Kept.record (by decide) (fun r => List.Sublist.refl _) (fun r => ?_) (fun r => ?_)
  · simp only [List.forall_mem_cons]
    exact ⟨⟨_, rfl, hversions.covered _⟩, ⟨_, rfl, hfiles.covered _⟩, nofun⟩
  · have hread := hversions.read_write r.objectVersions
    have hcontents := hfiles.read_write r.files
    exact Option.bind_eq_some_iff.2 ⟨r.objectVersions, hread,
      Option.bind_eq_some_iff.2 ⟨r.files, hcontents, rfl⟩⟩

/-! ## Entries -/

namespace Entry

/-- The values of an entry with their keys. -/
def fields (e : Entry) : List (String × Option Json) :=
  [("resourceName", some (.string e.resourceName)), ("fileName", e.fileName.map .string),
    ("path", e.path.map .string), ("mode", e.mode.map modeToJson),
    ("encoding", e.encoding.map fun c => .string c.name),
    ("extractJSONKey", e.jsonKey.map .string), ("extractYAMLKey", e.yamlKey.map .string)]

theorem nodup_fields (e : Entry) : (e.fields.map Prod.fst).Nodup :=
  show keys.Nodup by decide

theorem toJson_eq (e : Entry) : e.toJson = .object (present e.fields) := by
  have hnil : present [] = [] := rfl
  simp only [toJson, fields, present_cons, hnil, Option.map_map, List.append_assoc,
    List.append_nil]
  rfl

theorem read_encoding (c : Payload.Encoding) : encodingOfJson? (.string c.name) = some c := by
  cases c
  rfl

theorem kept (depth : Nat) : Kept (depth + 1) Entry.shape Entry.toJson Entry.ofJson? := by
  -- whatever is set, the keys that are written are some of those of the record, in their order
  rw [show Entry.toJson = fun e => .object (present e.fields) from funext toJson_eq]
  refine Kept.record (by decide) (fun e => sublist_present e.fields) (fun e => ?_) (fun e => ?_)
  · have hstring : ∀ t : String, Covered depth .whole (.string t) := .string
    have htext {k : String} (hk : shape.member? k = some .whole) (s : Option String) :=
      covered_map hk hstring s
    rw [forall_mem_present]
    simp only [fields, List.forall_mem_cons]
    exact ⟨htext rfl (some e.resourceName), htext rfl e.fileName, htext rfl e.path,
      covered_map rfl mode_kept.covered e.mode,
      covered_map rfl (fun c => hstring c.name) e.encoding,
      htext rfl e.jsonKey, htext rfl e.yamlKey, nofun⟩
  · have htext : ∀ s : Option String, optional? string? (s.map .string) = some s :=
      optional?_map rfl fun _ => rfl
    have hencoding := optional?_map rfl read_encoding e.encoding
    simp only [lookup_present (nodup_fields e)]
    exact Option.bind_eq_some_iff.2 ⟨e.resourceName, rfl,
      Option.bind_eq_some_iff.2 ⟨e.fileName, htext _,
      Option.bind_eq_some_iff.2 ⟨e.path, htext _,
      Option.bind_eq_some_iff.2 ⟨e.mode, optional?_map rfl read_modeToJson _,
      Option.bind_eq_some_iff.2 ⟨e.encoding, hencoding,
      Option.bind_eq_some_iff.2 ⟨e.jsonKey, htext _,
      Option.bind_eq_some_iff.2 ⟨e.yamlKey, htext _, rfl⟩⟩⟩⟩⟩⟩⟩

theorem member?_toJson (e : Entry) (k : String) :
    e.toJson.member? k = (e.fields.lookup k).join := by
  have hfields := nodup_fields e
  rw [toJson_eq, member?, lastOf?_eq_lookup (nodup_present hfields), lookup_present hfields]

end Entry

/-! ## What is received -/

/-- **Entries, pods, versions, files, responses and raw requests are read from the texts that are
written for them. What is written for an entry has its values under their keys, and no member for
one that is not set.** -/
theorem documents_read_back :
    (∀ e : Entry, readText? Entry.shape Entry.ofJson? e.toJson.text = some e) ∧
    (∀ p : Pod, readText? Pod.shape Pod.ofJson? p.toJson.text = some p) ∧
    (∀ v : ObjectVersion,
      readText? ObjectVersion.shape ObjectVersion.ofJson? v.toJson.text = some v) ∧
    (∀ f : File, readText? File.shape File.ofJson? f.toJson.text = some f) ∧
    (∀ r : Response, readText? Response.shape Response.ofJson? r.toJson.text = some r) ∧
    (∀ r : RawRequest, readText? RawRequest.shape RawRequest.ofJson? r.toJson.text = some r) ∧
    ∀ (e : Entry) (k : String), e.toJson.member? k = (e.fields.lookup k).join :=
  ⟨(Entry.kept 126).readText?, (Pod.kept 126).readText?, (ObjectVersion.kept 126).readText?,
    (File.kept 125).readText?, (Response.kept 123).readText?, (RawRequest.kept 126).readText?,
    Entry.member?_toJson⟩

end Mount

end SecretMount
