import Mathlib.Data.List.Infix
import Mathlib.Data.List.Nodup
import SecretMount.Proofs.Extraction
import SecretMount.Proofs.Values

/-!
# JSON payloads as YAML

What is taken out of a JSON object when it is read as YAML.

* `Layout.realText_eq_iff` : the doubles that both formats write alike;
* `Payload.Agree` : the same bytes, or the same failure;
* `Payload.RendersAlike` : the numbers that both formats write alike, and
  `Payload.rendersAlike_of_real` : which these are among those that both read as the same double;
* `Payload.extractions_agree_iff` : the members that are taken out alike.
-/

namespace SecretMount

open Json (Form NumberToken memberValues? Document)

/-! ## Doubles -/

namespace Layout

/-- How many digits stand in front of the point when no exponent is written. -/
def wholeDigits (x : Float) : Int :=
  (Nat.toDigits 10 (Shortest.digits x).1).length + (Shortest.digits x).2

theorem exponentText_eq_iff (e : Int) :
    Json.layout.exponentText e = Yaml.Schema.layout.exponentText e ↔ e < 0 := by
  unfold exponentText
  by_cases he : e < 0
  · simp only [he, if_true]
  · simp only [he, if_false, iff_false]
    exact List.cons_ne_self _ _

theorem decimalText_eq_iff (ds : List Char) (e : Int) :
    Json.layout.decimalText ds e = Yaml.Schema.layout.decimalText ds e ↔ ds.length + e ≤ 16 := by
  unfold decimalText
  dsimp only
  split
  · next h => exact iff_of_true rfl h.2
  · split
    · next h => exact iff_of_true rfl h.2
    · split
      · next h => exact iff_of_true rfl (by omega)
      · rw [List.append_cancel_left_eq, List.cons_inj_right, exponentText_eq_iff]
        omega

theorem realText_eq_iff (x : Float) : Json.layout.realText x = Yaml.Schema.layout.realText x ↔
    x.isNaN = false ∧ x.isInf = false ∧ ((Shortest.parts x).1 = 0 ∨ wholeDigits x ≤ 16) := by
  unfold realText
  cases hnan : x.isNaN with
  | true =>
    simp only [if_true, Bool.true_eq_false, false_and, iff_false]
    decide
  | false =>
    simp only [Bool.false_eq_true, if_false, true_and]
    rw [String.ofList_inj, List.append_cancel_left_eq]
    unfold magnitudeText
    cases hinf : x.isInf with
    | true =>
      simp only [if_true, Bool.true_eq_false, false_and, iff_false]
      decide
    | false =>
      simp only [Bool.false_eq_true, if_false, true_and]
      by_cases hzero : (Shortest.parts x).1 = 0
      · simp [hzero]
      · simp only [hzero, if_false, false_or]
        exact decimalText_eq_iff _ _

end Layout

namespace Payload

/-! ## Failures and bytes -/

/-- The extractions of a key from the two formats have the same bytes, or fail in the same way. -/
inductive Agree (key : String) : Except Fault Bytes → Except Fault Bytes → Prop
  | bytes (b : Bytes) : Agree key (.ok b) (.ok b)
  | missing : Agree key (.error (.missingKey ⟨.json, key⟩)) (.error (.missingKey ⟨.yaml, key⟩))
  | notScalar : Agree key (.error (.notScalar ⟨.json, key⟩)) (.error (.notScalar ⟨.yaml, key⟩))

theorem Agree.eq_of_ok {key : String} {b : Bytes} {r : Except Fault Bytes}
    (h : Agree key (.ok b) r) : r = .ok b := by
  cases h
  rfl

/-- Only failures name the key. -/
theorem yamlScalar_eq_ok {key : String} {v : Yaml.Value} {t : String}
    (h : yamlScalar key (some v) = .ok t) (other : String) : yamlScalar other (some v) = .ok t := by
  cases v with
  | null | list _ | mapping _ | tagged _ _ => cases h
  | bool _ | number _ | string _ => exact h

/-- The number `token`, which is written as `text`, is a scalar of YAML that has the text of its
double in JSON. -/
def RendersAlike (token : NumberToken) (text : Bytes) : Prop :=
  ∃ x v, token.real [] = .ok x ∧ Yaml.Value.ofPlain (Form.real token text).word = .ok v ∧
    ∀ key, yamlScalar key (some v) = .ok (Json.layout.realText x)

/-- No character of the payload is one of the ends of lines that only YAML knows. -/
def Unbroken (payload : Bytes) : Prop :=
  ∀ a ∈ ['\u0085', '\u2028', '\u2029'], ¬ String.utf8EncodeChar a <:+: payload

instance (payload : Bytes) : Decidable (Unbroken payload) :=
  List.decidableBAll (fun a => ¬ String.utf8EncodeChar a <:+: payload) _

theorem Unbroken.read {payload : Bytes} (h : Unbroken payload) :
    ∀ a ∈ (Yaml.Source.read payload).text, Yaml.Unbroken a := by
  intro a ha
  obtain ⟨tail, hbytes, -⟩ := Yaml.Source.read_bytes payload
  obtain ⟨x, y, hsplit⟩ := List.append_of_mem ha
  have hinfix : String.utf8EncodeChar a <:+: payload := by
    refine ⟨Text.bytes x, Text.bytes y ++ tail, ?_⟩
    rw [← hbytes, hsplit, Text.bytes_append, Text.bytes_cons]
    simp only [List.append_assoc]
  refine ⟨?_, ?_, ?_⟩ <;> rintro rfl <;> exact h _ (by decide) hinfix

/-- Every scalar but a double has the same text in both formats, and no other value has one. -/
theorem agree_of_of {key : String} {f : Form} {v : Json} {w : Yaml.Value} (hv : f.value? = some v)
    (hw : Yaml.Value.Of f w) (hreal : ∀ token text, f ≠ .real token text)
    (hfits : ∀ i, f = .integer i → Json.Fits i) :
    Agree key ((jsonScalar key (some v)).map Text.encode)
      ((yamlScalar key (some w)).map Text.encode) := by
  cases f with
  | null =>
    cases hv
    cases hw
    exact .missing
  | bool b =>
    cases hv
    cases b <;> cases hw <;> exact .bytes _
  | integer i =>
    cases hv
    cases (Yaml.Value.ofPlain_toString (hfits i rfl)).symm.trans hw
    exact .bytes _
  | real token text => exact absurd rfl (hreal token text)
  | string s =>
    cases hv
    cases hw
    exact .bytes _
  | array items =>
    obtain ⟨vs, -, rfl⟩ := Option.map_eq_some_iff.1 hv
    obtain ⟨ws, rfl⟩ := hw
    exact .notScalar
  | object members =>
    obtain ⟨ms, -, rfl⟩ := Option.map_eq_some_iff.1 hv
    obtain ⟨entries, rfl⟩ := hw
    exact .notScalar

theorem agree_real_iff {key : String} {token : NumberToken} {text : Bytes} {v : Json}
    {w : Yaml.Value} (hv : (Form.real token text).value? = some v)
    (hw : Yaml.Value.Of (.real token text) w) :
    Agree key ((jsonScalar key (some v)).map Text.encode)
      ((yamlScalar key (some w)).map Text.encode) ↔ RendersAlike token text := by
  obtain ⟨x, hx, rfl⟩ := Option.map_eq_some_iff.1 hv
  cases hreal : token.real [] with
  | error e =>
    rw [hreal] at hx
    cases hx
  | ok x' =>
    rw [hreal] at hx
    obtain rfl : x' = x := Option.some.inj hx
    change Agree key (.ok (Text.encode (Json.layout.realText x'))) _ ↔ _
    constructor
    · intro h
      obtain ⟨t, ht, hencode⟩ := map_eq_ok_iff.1 h.eq_of_ok
      obtain rfl := Json.encode_inj hencode
      exact ⟨x', w, hreal, hw, yamlScalar_eq_ok ht⟩
    · rintro ⟨y, w', hx', hw', htext⟩
      cases hreal.symm.trans hx'
      cases hw.symm.trans hw'
      rw [htext key]
      exact .bytes _

/-- Where YAML reads the same double, it must not have a positive exponent. -/
theorem rendersAlike_of_real {token : NumberToken} {text : Bytes} {x : Float}
    (hx : token.real [] = .ok x)
    (hplain : Yaml.Value.ofPlain (Form.real token text).word = .ok (.number (.real x))) :
    RendersAlike token text ↔ x.isNaN = false ∧ x.isInf = false ∧
      ((Shortest.parts x).1 = 0 ∨ Layout.wholeDigits x ≤ 16) := by
  rw [← Layout.realText_eq_iff]
  constructor
  · rintro ⟨x', v, hx', hv, htext⟩
    cases hx.symm.trans hx'
    cases hplain.symm.trans hv
    exact (Except.ok.inj (htext "")).symm
  · intro h
    exact ⟨_, _, hx, hplain, fun _ => congrArg Except.ok h.symm⟩

theorem eq_of_nodup_keys {fs : List (String × Form)} (hkeys : (fs.map Prod.fst).Nodup)
    {key : String} {f g : Form} (hf : (key, f) ∈ fs) (hg : (key, g) ∈ fs) : f = g :=
  (Prod.mk.inj (List.inj_on_of_nodup_map hkeys hf hg rfl)).2

/-- A payload of which something is taken out is a mapping. -/
theorem exists_entries {fs : List (String × Form)} {payload b : Bytes} {key : String}
    (hdocument : Document (.object fs) payload) (hunbroken : Unbroken payload)
    (h : extractYaml payload key = .ok b) :
    ∃ entries, Yaml.Value.parse payload = .ok (.mapping entries) := by
  obtain ⟨v, hv, -⟩ := bind_eq_ok_iff.1 h
  have hparse := mapError_eq_ok_iff.1 hv
  obtain ⟨entries, rfl, -⟩ := Yaml.Value.of_parse hdocument hunbroken.read hparse
  exact ⟨entries, hparse⟩

/-- The member of a key decides. -/
theorem agree_iff_rendersAlike {fs : List (String × Form)} {payload : Bytes} {v : Json}
    {entries : List (Yaml.Value × Yaml.Value)} (hdocument : Document (.object fs) payload)
    (hvalue : (Form.object fs).value? = some v) (hkeys : (fs.map Prod.fst).Nodup)
    (hyaml : Yaml.Value.parse payload = .ok (.mapping entries)) (hunbroken : Unbroken payload)
    (key : String) :
    Agree key (extractJson payload key) (extractYaml payload key) ↔
      ∀ token text, (key, Form.real token text) ∈ fs → RendersAlike token text := by
  rw [Form.value?, Option.map_eq_some_iff] at hvalue
  obtain ⟨ms, hms, rfl⟩ := hvalue
  have hjson : extractJson payload key =
      (jsonScalar key ((Json.object ms).member? key)).map Text.encode := by
    rw [extractJson_of_parse (Json.parse_of_document hdocument
      (by rw [Form.value?, hms, Option.map_some]))]
  obtain ⟨entries', heq, hentries⟩ := Yaml.Value.of_parse hdocument hunbroken.read hyaml
  cases heq
  have hextract : extractYaml payload key =
      (yamlScalar key ((Yaml.Value.mapping entries).member? key)).map Text.encode := by
    unfold extractYaml
    rw [hyaml]
    rfl
  rw [hjson, hextract]
  rcases Yaml.Value.member?_of hentries with ⟨hnot, hnone⟩ | ⟨f, w, hmem, hmember, hw⟩
  · have hmissing : (Json.object ms).member? key = none := by
      rw [Json.member?, Json.lastOf?_of_not_mem (Json.keys_of_memberValues? hms ▸ hnot)]
    rw [hmissing, hnone]
    exact iff_of_true .missing fun token text h => absurd (List.mem_map_of_mem h) hnot
  · obtain ⟨v, hjsonMember, hv⟩ := Json.member?_of_mem hms hkeys hmem
    rw [hjsonMember, hmember]
    by_cases hreal : ∃ token text, f = .real token text
    · obtain ⟨token, text, rfl⟩ := hreal
      rw [agree_real_iff hv hw]
      refine ⟨fun h token' text' h' => ?_, fun h => h token text hmem⟩
      cases eq_of_nodup_keys hkeys hmem h'
      exact h
    · have hno : ∀ token text, f ≠ .real token text := fun token text h => hreal ⟨token, text, h⟩
      refine iff_of_true (agree_of_of hv hw hno ?_) fun token text h =>
        absurd (eq_of_nodup_keys hkeys hmem h) (hno token text)
      rintro i rfl
      obtain ⟨depth, s, hwrites⟩ := hdocument.exists_writes hmem
      exact hwrites.fits

/-- **A member of a JSON object is taken out alike from both formats unless it is a number that is
no integer of 64 bits.** Such a number is exactly when YAML writes it as JSON does, and that is
exactly when no positive exponent is written, where both read the same double. -/
theorem extractions_agree_iff {fs : List (String × Form)} {payload : Bytes} {v : Json}
    {entries : List (Yaml.Value × Yaml.Value)} (hdocument : Document (.object fs) payload)
    (hvalue : (Form.object fs).value? = some v) (hkeys : (fs.map Prod.fst).Nodup)
    (hyaml : Yaml.Value.parse payload = .ok (.mapping entries)) (hunbroken : Unbroken payload)
    (key : String) :
    (Agree key (extractJson payload key) (extractYaml payload key) ↔
      ∀ token text, (key, Form.real token text) ∈ fs → RendersAlike token text) ∧
    ∀ token text x, (key, Form.real token text) ∈ fs → token.real [] = .ok x →
      Yaml.Value.ofPlain (Form.real token text).word = .ok (.number (.real x)) →
      (Agree key (extractJson payload key) (extractYaml payload key) ↔
        x.isNaN = false ∧ x.isInf = false ∧
          ((Shortest.parts x).1 = 0 ∨ Layout.wholeDigits x ≤ 16)) := by
  have hagree := agree_iff_rendersAlike hdocument hvalue hkeys hyaml hunbroken key
  refine ⟨hagree, fun token text x hmem hx hplain => ?_⟩
  rw [hagree, ← rendersAlike_of_real hx hplain]
  refine ⟨fun h => h token text hmem, fun h token' text' hmem' => ?_⟩
  cases eq_of_nodup_keys hkeys hmem' hmem
  exact h

/-- A number with a fraction, which is taken out of both formats as the same text. -/
theorem extractions_agree_iff_fraction :
    let token : NumberToken := ⟨false, [2], [5], none⟩
    let t := Text.encode "2.5"
    let payload := Text.encode "\x7b\"n\":2.5\x7d"
    Document (.object [("n", .real token t)]) payload ∧ Unbroken payload ∧
      (∃ entries, Yaml.Value.parse payload = .ok (.mapping entries)) ∧
      Agree "n" (extractJson payload "n") (extractYaml payload "n") := by
  intro token t payload
  have hspelled : token.Spelled t :=
    ⟨t, .mk (f := [46, 53]) (e := []) ⟨by decide, by decide, by decide⟩
      (@Json.SpelledFraction.digits [5] (by decide) (by decide)) .none, rfl⟩
  have hdocument : Document (.object [("n", .real token t)]) payload :=
    document_of_member (.real hspelled (by decide))
  have hunbroken : Unbroken payload := by decide +kernel
  have hextract : extractYaml payload "n" = .ok t := by decide +kernel
  obtain ⟨entries, hyaml⟩ := exists_entries hdocument hunbroken hextract
  obtain ⟨x, hx, hjson⟩ : ∃ x, token.real [] = .ok x ∧ Json.layout.realText x = "2.5" :=
    map_eq_ok_iff.1 (by decide +kernel)
  have hplain : ((Yaml.Value.ofPlain (Form.real token t).word).mapError
      fun _ => .missingKey ⟨.yaml, "n"⟩) >>= (fun v => yamlScalar "n" (some v)) = .ok "2.5" := by
    decide +kernel
  obtain ⟨v, hv, htext⟩ := bind_eq_ok_iff.1 hplain
  have hvalue : (Form.object [("n", .real token t)]).value? =
      some (.object [("n", .number (.real x))]) := by
    simp [Form.value?, memberValues?, hx, Except.toOption]
  refine ⟨hdocument, hunbroken, ⟨entries, hyaml⟩, ?_⟩
  refine (extractions_agree_iff hdocument hvalue (by decide) hyaml hunbroken "n").1.2 ?_
  intro token' text' hmem
  cases List.mem_singleton.1 hmem
  exact ⟨x, v, hx, mapError_eq_ok_iff.1 hv, yamlScalar_eq_ok (hjson ▸ htext)⟩

/-- A large double has a plus sign in its exponent in JSON only, and an end of line that JSON does
not know is folded by YAML. -/
theorem extractions_differ :
    let token : NumberToken := ⟨false, [1], [], some (false, [1, 6])⟩
    let payload := Text.encode "\x7b\"n\":1e16\x7d"
    let broken := Text.encode "\x7b\"n\":\"a\u0085b\"\x7d"
    (Document (.object [("n", .real token (Text.encode "1e16"))]) payload ∧ Unbroken payload ∧
      (∃ entries, Yaml.Value.parse payload = .ok (.mapping entries)) ∧
      extractJson payload "n" = .ok (Text.encode "1e+16") ∧
      extractYaml payload "n" = .ok (Text.encode "1e16") ∧
      ¬ Agree "n" (extractJson payload "n") (extractYaml payload "n")) ∧
    Document (.object [("n", .string "a\u0085b")]) broken ∧ ¬ Unbroken broken ∧
      extractJson broken "n" = .ok (Text.encode "a\u0085b") ∧
      extractYaml broken "n" = .ok (Text.encode "a b") ∧
      ¬ Agree "n" (extractJson broken "n") (extractYaml broken "n") := by
  intro token payload broken
  have hspelled : token.Spelled (Text.encode "1e16") :=
    ⟨_, .mk (f := []) (e := [101, 49, 54]) ⟨by decide, by decide, by decide⟩ .none
      (@Json.SpelledExponent.unsigned 101 [1, 6] (Or.inl rfl) (by decide) (by decide)), rfl⟩
  have hdocument : Document (.object [("n", .real token (Text.encode "1e16"))]) payload :=
    document_of_member (.real hspelled (by decide))
  have hunbroken : Unbroken payload := by decide +kernel
  have hjson : extractJson payload "n" = .ok (Text.encode "1e+16") := by decide +kernel
  have hyaml : extractYaml payload "n" = .ok (Text.encode "1e16") := by decide +kernel
  have hdiffer : ¬ Agree "n" (extractJson payload "n") (extractYaml payload "n") := by
    rw [hjson, hyaml]
    exact fun h => absurd h.eq_of_ok (by decide)
  have hspelled' : Json.Spelled "a\u0085b".toList (Text.encode "a\u0085b") :=
    .cons (.plain (by decide) (by decide) (by decide))
      (.cons (.plain (by decide) (by decide) (by decide))
        (.cons (.plain (by decide) (by decide) (by decide)) .nil))
  have hjson' : extractJson broken "n" = .ok (Text.encode "a\u0085b") := by decide +kernel
  have hyaml' : extractYaml broken "n" = .ok (Text.encode "a b") := by decide +kernel
  have hdiffer' : ¬ Agree "n" (extractJson broken "n") (extractYaml broken "n") := by
    rw [hjson', hyaml']
    exact fun h => absurd h.eq_of_ok (by decide)
  exact ⟨⟨hdocument, hunbroken, exists_entries hdocument hunbroken hyaml, hjson, hyaml, hdiffer⟩,
    document_of_member (.string hspelled'), by decide +kernel, hjson', hyaml', hdiffer'⟩

end Payload

end SecretMount
