import SecretMount.Mount.Request
import SecretMount.Proofs.Readings
import SecretMount.Proofs.Sources

/-!
# What a list of entries says

* `Yaml.Schema.customName?_eq_some_iff` : the tags that are a document's own;
* `Entry.SaysMode`, `Entry.SaysEncoding` : the scalars that stand for a mode and for an encoding;
* `Entry.Says` : the entry that a mapping says, each field of it under its own key, and
  `Entry.finds_ofYaml` : it is the entry that is read;
* `Mount.Lists` : the entries that a text lists, and `Mount.readEntries?_eq_some_iff` : they are
  those that are read.
-/

namespace SecretMount

/-! ## Tags -/

namespace Text

theorem encode_bang (s : String) : encode ("!" ++ s) = Yaml.Schema.bang :: encode s := by
  have hbang : String.utf8EncodeChar '!' = [Yaml.Schema.bang] := by decide
  rw [encode, String.toList_append]
  change List.flatMap String.utf8EncodeChar ('!' :: s.toList) = _
  rw [List.flatMap_cons, hbang]
  rfl

end Text

namespace Yaml.Schema

/-- A tag that starts with `!` is a document's own, and its name is what follows. -/
theorem customName?_eq_some_iff {tag : Option Bytes} {name : Bytes} :
    customName? tag = some name ↔ ∃ s, tag = some (Text.encode ("!" ++ s)) ∧
      name = Text.encode (if s = "" then "!" else s) := by
  have hdrop : ∀ s : String,
      dropBang (bang :: Text.encode s) = Text.encode (if s = "" then "!" else s) := by
    intro s
    split
    · next hs =>
      subst hs
      decide
    · next hs =>
      cases hencode : Text.encode s with
      | nil =>
        have hempty : Text.encode s = Text.encode "" := hencode
        exact absurd (Text.encode_injective hempty) hs
      | cons b r => rfl
  unfold customName?
  rw [Option.map_eq_some_iff]
  simp only [Option.filter_eq_some_iff, Bool.and_eq_true, beq_iff_eq]
  constructor
  · rintro ⟨t, ⟨rfl, hhead, hdecoded⟩, rfl⟩
    obtain ⟨r, rfl⟩ := List.head?_eq_some_iff.1 hhead
    rw [Text.decodeChars?_one (by decide), Option.isSome_map, Option.isSome_iff_exists] at hdecoded
    obtain ⟨cs, hcs⟩ := hdecoded
    obtain rfl : r = Text.encode (String.ofList cs) :=
      Text.decode?_eq_some_iff.1 (Option.map_eq_some_iff.2 ⟨cs, hcs, rfl⟩)
    exact ⟨String.ofList cs, by rw [Text.encode_bang], hdrop _⟩
  · rintro ⟨s, rfl, rfl⟩
    have hdecoded : (Text.decodeChars? (Text.encode ("!" ++ s))).isSome = true := by
      have hdecode := Text.decode?_encode ("!" ++ s)
      rw [Text.decode?, Option.map_eq_some_iff] at hdecode
      obtain ⟨cs, hcs, -⟩ := hdecode
      rw [hcs, Option.isSome_some]
    rw [Text.encode_bang] at hdecoded ⊢
    exact ⟨_, ⟨rfl, rfl, hdecoded⟩, hdrop s⟩

end Yaml.Schema

namespace Mount

open Yaml (Document Reading Scalar Tree)

namespace Entry

/-! ## Scalars -/

theorem modeOfInt?_eq_some_iff {i : Int} {m : Mode} : modeOfInt? i = some m ↔ i = m.toInt := by
  unfold modeOfInt?
  constructor
  · intro h
    split at h
    · next hi =>
      cases h
      exact (Int32.toInt_ofInt_of_le hi.1 hi.2).symm
    · cases h
  · rintro rfl
    rw [if_pos ⟨Int32.le_toInt m, Int32.toInt_lt m⟩, Int32.ofInt_toInt]

/-- The scalar `s` is an integer and stands for the mode `m`. -/
def SaysMode (s : Scalar) (m : Mode) : Prop :=
  Document.IsIntegral s ∧ Yaml.Schema.IsInteger s.text.toList m.toInt

theorem readsAs_mode (d : Document) : d.ReadsAs (modeOfYaml d) SaysMode := by
  intro t
  refine (d.readsAs_bind d.readsAs_int (fun i => Reading.finds_ofOption (modeOfInt? i)) t).congr
    fun m => exists_congr fun s => and_congr_right fun _ => ?_
  simp only [modeOfInt?_eq_some_iff]
  have hlow := Int32.le_toInt m
  have hhigh := Int32.toInt_lt m
  constructor
  · rintro ⟨_, ⟨hs, hi, -⟩, rfl⟩
    exact ⟨hs, hi⟩
  · rintro ⟨hs, hi⟩
    exact ⟨_, ⟨hs, hi, by omega, by omega⟩, rfl⟩

/-- The scalar `s` stands for an encoding: it is its name, or nothing with the tag of that name. -/
inductive SaysEncoding (s : Scalar) : Payload.Encoding → Prop
  | name (h : s.text = "base64") (htag : ∀ name, s.tag ≠ some (Text.encode ("!" ++ name))) :
    SaysEncoding s .base64
  | tag (h : s.tag = some (Text.encode "!base64")) (hplain : s.style = .plain)
    (htext : s.text ∈ ["", "~", "null", "Null", "NULL"]) : SaysEncoding s .base64

theorem ofName?_eq_some_iff {s : String} {c : Payload.Encoding} :
    Payload.Encoding.ofName? s = some c ↔ s = "base64" := by
  cases c
  simp [Payload.Encoding.ofName?]

/-- A scalar with a tag of the document's own does not stand for an encoding by its text. -/
theorem saysEncoding_iff_of_tag {s : Scalar} {c : Payload.Encoding} {name : String}
    (h : s.tag = some (Text.encode ("!" ++ name))) :
    SaysEncoding s c ↔ (s.style = .plain ∧ s.text ∈ ["", "~", "null", "Null", "NULL"]) ∧
      name = "base64" := by
  constructor
  · rintro (⟨-, htag⟩ | ⟨htag, hplain, htext⟩)
    · exact absurd h (htag name)
    · have hname : "!" ++ name = "!" ++ "base64" :=
        Text.encode_injective (Option.some.inj (h.symm.trans htag))
      exact ⟨⟨hplain, htext⟩, (String.append_right_inj "!").1 hname⟩
  · rintro ⟨⟨hplain, htext⟩, rfl⟩
    cases c
    exact .tag h hplain htext

theorem saysEncoding_iff_of_noTag {s : Scalar} {c : Payload.Encoding}
    (h : ∀ name, s.tag ≠ some (Text.encode ("!" ++ name))) :
    SaysEncoding s c ↔ s.text = "base64" := by
  constructor
  · rintro (⟨htext, -⟩ | ⟨htag, -⟩)
    · exact htext
    · exact absurd htag (h "base64")
  · intro htext
    cases c
    exact .name htext h

theorem readsAs_encoding (d : Document) : d.ReadsAs (encodingOfYaml d) SaysEncoding := by
  intro t
  refine (d.finds_scalar t).bind (j := 0) fun s _ => ?_
  split
  · next hname =>
    have htag : ∀ name, s.tag ≠ some (Text.encode ("!" ++ name)) := fun name htag =>
      absurd (Yaml.Schema.customName?_eq_some_iff.2 ⟨name, htag, rfl⟩) (by simp [hname])
    exact (Reading.finds_ofOption _).congr fun c => by
      rw [ofName?_eq_some_iff, saysEncoding_iff_of_noTag htag]
  · next hname =>
    obtain ⟨name, htag, rfl⟩ := Yaml.Schema.customName?_eq_some_iff.1 hname
    split
    · next h =>
      refine (Reading.finds_ofOption _).congr fun c => ?_
      rw [← Bool.or_eq_true, Scalar.isEmpty_or_isNull_iff] at h
      rw [Text.decode?_encode, Option.bind_some, ofName?_eq_some_iff, saysEncoding_iff_of_tag htag,
        and_iff_right h]
      split
      · next hempty => simp [hempty]
      · exact Iff.rfl
    · next h =>
      refine (Reading.finds_throw _ _).congr fun c => ?_
      rw [← Bool.or_eq_true, Scalar.isEmpty_or_isNull_iff] at h
      rw [saysEncoding_iff_of_tag htag]
      exact ⟨False.elim, fun hc => h hc.1⟩

/-! ## Entries -/

/-- A mapping with `members` says the entry `e`. Each field stands under its own key, which is there
once at most, and what has no value or null is not set. Other keys say nothing. -/
structure Says (d : Document) (members : List (Tree × Tree)) (e : Entry) : Prop where
  texts : ∀ m ∈ members, (d.text? m.1).isSome = true
  resourceName : ∃ t, d.under "resourceName" members = [t] ∧ d.text? t = some e.resourceName
  fileName : d.Optional (·.text = ·) (d.under "fileName" members) e.fileName
  path : d.Optional (·.text = ·) (d.under "path" members) e.path
  mode : d.Optional SaysMode (d.under "mode" members) e.mode
  encoding : d.Optional SaysEncoding (d.under "encoding" members) e.encoding
  jsonKey : d.Optional (·.text = ·) (d.under "extractJSONKey" members) e.jsonKey
  yamlKey : d.Optional (·.text = ·) (d.under "extractYAMLKey" members) e.yamlKey

/-- The nodes that are looked at for the fields of an entry with these members. -/
def fieldNodes (d : Document) (members : List (Tree × Tree)) : List Tree :=
  d.under "resourceName" members ++ (d.under "fileName" members ++ (d.under "path" members ++
    (d.under "mode" members ++ (d.under "encoding" members ++
      (d.under "extractJSONKey" members ++ d.under "extractYAMLKey" members)))))

/-- The nodes that are looked at for the entry `t`. -/
def nodes (d : Document) (t : Tree) : List Tree :=
  let members := (d.members? t).getD []
  t :: (members.map Prod.fst ++ fieldNodes d members)

theorem Says.hasFields {d : Document} {members : List (Tree × Tree)} {e : Entry}
    (h : Says d members e) : d.HasFields keys members := by
  refine ⟨h.texts, fun k hk => ?_⟩
  simp only [keys, List.mem_cons, List.not_mem_nil, or_false] at hk
  rcases hk with rfl | rfl | rfl | rfl | rfl | rfl | rfl
  · obtain ⟨t, hname, -⟩ := h.resourceName
    rw [hname]
    exact Nat.le_refl 1
  · exact h.fileName.length_le_one
  · exact h.path.length_le_one
  · exact h.mode.length_le_one
  · exact h.encoding.length_le_one
  · exact h.jsonKey.length_le_one
  · exact h.yamlKey.length_le_one

/-- The entry that is read from a node. -/
theorem finds_ofYaml {d : Document} (hd : d.Resolved) (t : Tree) :
    (ofYaml d t).Finds d.maxFollowed (Yaml.aliases (nodes d t)) fun e =>
      ∃ members, d.members? t = some members ∧ Says d members e := by
  have hcount : Yaml.aliases (nodes d t) = Yaml.aliases [t] +
      Yaml.aliases (((d.members? t).getD []).map Prod.fst) +
      Yaml.aliases (fieldNodes d ((d.members? t).getD [])) := by
    rw [nodes, Yaml.aliases_cons, Yaml.aliases_append, Nat.add_assoc]
  rw [hcount]
  refine ((d.finds_fields keys t).bind (S := fun field e => ∃ members,
    d.members? t = some members ∧ field = d.fieldsOf keys members ∧ Says d members e)
    fun field hfield => ?_).congr fun e => ?_
  · obtain ⟨members, hmembers, hfields, rfl⟩ := hfield
    rw [hmembers, Option.getD_some]
    simp only [fieldNodes, Yaml.aliases_append]
    refine ((Document.finds_required_field d.readsAs_text hfields (by decide)).bind fun name _ =>
      (Document.finds_optional_field hd d.readsAs_text hfields (by decide)).bind fun file _ =>
      (Document.finds_optional_field hd d.readsAs_text hfields (by decide)).bind fun path _ =>
      (Document.finds_optional_field hd (readsAs_mode d) hfields (by decide)).bind fun mode _ =>
      (Document.finds_optional_field hd (readsAs_encoding d) hfields (by decide)).bind
        fun encoding _ =>
      (Document.finds_optional_field hd d.readsAs_text hfields (by decide)).bind fun json _ =>
      (Document.finds_optional_field hd d.readsAs_text hfields (by decide)).bind (j := 0)
        fun yaml _ => Reading.finds_pure (Entry.mk name file path mode encoding json yaml)).congr
        fun e => ?_
    constructor
    · rintro ⟨name, ⟨t, s, ht, hs, hname⟩, file, hfile, path, hpath, mode, hmode, encoding,
        hencoding, json, hjson, yaml, hyaml, rfl⟩
      have htext : d.text? t = some name := Option.map_eq_some_iff.2 ⟨s, hs, hname⟩
      exact ⟨members, rfl, rfl, hfields.texts, ⟨t, ht, htext⟩, hfile, hpath, hmode, hencoding,
        hjson, hyaml⟩
    · rintro ⟨_, hsame, -, he⟩
      cases hsame
      obtain ⟨t, ht, htext⟩ := he.resourceName
      obtain ⟨s, hs, hname⟩ := Option.map_eq_some_iff.1 htext
      exact ⟨e.resourceName, ⟨t, s, ht, hs, hname⟩, e.fileName, he.fileName, e.path, he.path,
        e.mode, he.mode, e.encoding, he.encoding, e.jsonKey, he.jsonKey, e.yamlKey, he.yamlKey,
        rfl⟩
  · constructor
    · rintro ⟨field, -, members, hmembers, -, he⟩
      exact ⟨members, hmembers, he⟩
    · rintro ⟨members, hmembers, he⟩
      exact ⟨_, ⟨members, hmembers, he.hasFields, rfl⟩, members, hmembers, rfl, he⟩

end Entry

/-! ## Lists -/

/-- `text` lists `entries`: it is one document without a fault, a list of mappings that say them in
this order, and no more aliases are followed to their fields than the document allows. -/
inductive Lists (text : String) (entries : List Entry) : Prop
  | mk {d : Document} {items : List Tree} (hread : Document.read (Text.encode text) = .ok d)
    (hfault : d.fault = none) (halone : d.alone = true) (hitems : d.items? d.root = some items)
    (hentries : List.Forall₂ (fun t e => ∃ members, d.members? t = some members ∧
      Entry.Says d members e) items entries)
    (haliases : Yaml.aliases (d.root :: items.flatMap (Entry.nodes d)) ≤ d.maxFollowed) :
    Lists text entries

/-- The entries that are read from the root of a document. -/
theorem finds_entries (d : Document) (hd : d.Resolved) :
    (do
      let items ← d.items d.root
      items.mapM (Entry.ofYaml d) : Reading (List Entry)).Finds d.maxFollowed
      (Yaml.aliases (d.root :: ((d.items? d.root).getD []).flatMap (Entry.nodes d)))
      fun entries => ∃ items, d.items? d.root = some items ∧
        List.Forall₂ (fun t e => ∃ members, d.members? t = some members ∧
          Entry.Says d members e) items entries := by
  rw [Yaml.aliases_cons]
  refine (d.finds_items d.root).bind fun items hitems => ?_
  rw [hitems, Option.getD_some, Yaml.aliases_flatMap]
  exact Reading.finds_mapM fun t _ => Entry.finds_ofYaml hd t

/-- **The entries that are read from a text are those that it lists.** -/
theorem readEntries?_eq_some_iff {text : String} {entries : List Entry} :
    readEntries? text = some entries ↔ Lists text entries := by
  rw [readEntries?, toOption_eq_some_iff, Yaml.readDocument_eq_ok_iff finds_entries]
  constructor
  · rintro ⟨d, hread, hfault, halone, ⟨items, hitems, hentries⟩, haliases⟩
    rw [hitems] at haliases
    exact ⟨hread, hfault, halone, hitems, hentries, haliases⟩
  · rintro ⟨hread, hfault, halone, hitems, hentries, haliases⟩
    refine ⟨_, hread, hfault, halone, ⟨_, hitems, hentries⟩, ?_⟩
    rwa [hitems]

end Mount

end SecretMount
