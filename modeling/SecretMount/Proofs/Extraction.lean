import SecretMount.Payload
import SecretMount.Proofs.Recognition

/-!
# Members of JSON payloads

* `Json.lastOf?_of_last`, `Json.exists_members` : the last member of a key, as a value and as it is
  written;
* `Payload.Extracted` : what is taken out for a member;
* `Payload.extracts_last_member` : which member is taken out of which payload;
* `Layout.exists_mark` : a double is written with a point, an exponent or a word;
* `Payload.number_kept_iff` : which numbers are taken out as they are written.
-/

namespace SecretMount

namespace Json

/-! ## Members -/

theorem lastOf?_of_not_mem {key : String} {ms : List (String × Json)}
    (h : key ∉ ms.map Prod.fst) : lastOf? key ms = none := by
  rw [lastOf?, List.lookup_eq_none_iff]
  intro m hm
  rw [bne_iff_ne]
  rintro rfl
  exact h (List.mem_map_of_mem (List.mem_reverse.1 hm))

theorem lastOf?_of_last {key : String} {v : Json} {before after : List (String × Json)}
    (h : key ∉ after.map Prod.fst) : lastOf? key (before ++ (key, v) :: after) = some v :=
  Table.lookup_reverse_eq_some_iff.2 ⟨before, after, rfl, h⟩

theorem keys_of_memberValues? : ∀ {fs : List (String × Form)} {ms : List (String × Json)},
    memberValues? fs = some ms → ms.map Prod.fst = fs.map Prod.fst
  | [], _, rfl => rfl
  | (k, f) :: fs, ms, h => by
    simp only [memberValues?, Option.bind_eq_some_iff, Option.map_eq_some_iff] at h
    obtain ⟨v, -, ns, hns, rfl⟩ := h
    rw [List.map_cons, List.map_cons, keys_of_memberValues? hns]

/-- The values of members that are written in front of, as and behind one of them. -/
theorem exists_members {key : String} {f : Form} {after : List (String × Form)} :
    ∀ {before : List (String × Form)} {ms : List (String × Json)},
      memberValues? (before ++ (key, f) :: after) = some ms →
        ∃ front v back, ms = front ++ (key, v) :: back ∧ f.value? = some v ∧
          back.map Prod.fst = after.map Prod.fst
  | [], ms, h => by
    simp only [List.nil_append, memberValues?, Option.bind_eq_some_iff,
      Option.map_eq_some_iff] at h
    obtain ⟨v, hv, back, hback, rfl⟩ := h
    exact ⟨[], v, back, rfl, hv, keys_of_memberValues? hback⟩
  | (k, g) :: before, ms, h => by
    simp only [List.cons_append, memberValues?, Option.bind_eq_some_iff,
      Option.map_eq_some_iff] at h
    obtain ⟨w, -, ns, hns, rfl⟩ := h
    obtain ⟨front, v, back, rfl, hv, hback⟩ := exists_members hns
    exact ⟨(k, w) :: front, v, back, rfl, hv, hback⟩

theorem member?_of_mem {fs : List (String × Form)} {ms : List (String × Json)} {key : String}
    {f : Form} (hms : memberValues? fs = some ms) (hkeys : (fs.map Prod.fst).Nodup)
    (hf : (key, f) ∈ fs) : ∃ v, (object ms).member? key = some v ∧ f.value? = some v := by
  obtain ⟨before, after, rfl⟩ := List.append_of_mem hf
  obtain ⟨front, v, back, rfl, hv, hback⟩ := exists_members hms
  refine ⟨v, ?_, hv⟩
  rw [List.map_append, List.map_cons] at hkeys
  have hnot : key ∉ back.map Prod.fst := by
    rw [hback]
    exact (List.nodup_cons.1 (List.nodup_append.1 hkeys).2.1).1
  rw [member?, lastOf?_of_last hnot]

/-- Every member has a text. -/
theorem WritesMembers.exists_writes : ∀ {depth : Nat} {fs : List (String × Form)} {t : Bytes}
    {k : String} {f : Form}, WritesMembers depth fs t → (k, f) ∈ fs → ∃ s, Writes depth f s
  | _, _, _, _, _, .last _ h _, hmem => by
    cases List.mem_singleton.1 hmem
    exact ⟨_, h⟩
  | _, _, _, _, _, .more _ h _ _ ht, hmem => by
    rcases List.mem_cons.1 hmem with hhead | hmem
    · cases hhead
      exact ⟨_, h⟩
    · exact ht.exists_writes hmem

theorem Document.exists_writes {fs : List (String × Form)} {s : Bytes} {k : String} {f : Form}
    (h : Document (.object fs) s) (hmem : (k, f) ∈ fs) : ∃ depth t, Writes depth f t := by
  obtain ⟨-, t, -, -, -, hwrites, -⟩ := h
  cases hwrites with
  | emptyObject _ => cases hmem
  | object _ h => exact ⟨_, h.exists_writes hmem⟩

theorem Writes.fits {depth : Nat} {i : Int} {s : Bytes} (h : Writes depth (.integer i) s) :
    Fits i := by
  cases h with
  | integer h => exact h

theorem Writes.spelled {depth : Nat} {token : NumberToken} {text s : Bytes}
    (h : Writes depth (.real token text) s) : token.Spelled text := by
  cases h with
  | real h _ => exact h

end Json

/-! ## Texts of doubles -/

namespace Layout

theorem exists_mark_decimalText (layout : Layout) (ds : List Char) (e : Int) :
    ∃ c ∈ layout.decimalText ds e, c = '.' ∨ c = 'e' := by
  unfold decimalText
  simp only
  split
  · exact ⟨'.', by simp, Or.inl rfl⟩
  · split
    · exact ⟨'.', by simp, Or.inl rfl⟩
    · split
      · exact ⟨'.', by simp, Or.inl rfl⟩
      · exact ⟨'e', by simp, Or.inr rfl⟩

/-- A double is not written like an integer. -/
theorem exists_mark (x : Float) :
    ∃ c ∈ (Json.layout.realText x).toList, c = '.' ∨ c = 'e' ∨ c = 'n' := by
  have hword : ∃ c ∈ "null".toList, c = '.' ∨ c = 'e' ∨ c = 'n' := ⟨'n', by decide, by decide⟩
  unfold realText
  split
  · exact hword
  · rw [String.toList_ofList]
    suffices h : ∃ c ∈ Json.layout.magnitudeText x, c = '.' ∨ c = 'e' ∨ c = 'n' by
      obtain ⟨c, hc, hmark⟩ := h
      exact ⟨c, List.mem_append_right _ hc, hmark⟩
    unfold magnitudeText
    split
    · exact hword
    · split
      · exact ⟨'.', by simp, Or.inl rfl⟩
      · obtain ⟨c, hc, hmark⟩ := exists_mark_decimalText Json.layout
          (Nat.toDigits 10 (Shortest.digits x).1) (Shortest.digits x).2
        exact ⟨c, hc, hmark.imp_right Or.inl⟩

end Layout

namespace Json

/-- The bytes of a number without a fraction and an exponent are its sign and its digits. -/
theorem NumberToken.Spelled.bytes {t : NumberToken} {s : Bytes} (h : t.Spelled s)
    (hfraction : t.fraction = []) (hexponent : t.exponent = none) :
    ∀ b ∈ s, b = 45 ∨ ∃ d < 10, b = digitByte d := by
  obtain ⟨m, ⟨hwhole, hf, he⟩, rfl⟩ := h
  simp only at hfraction hexponent
  subst hfraction hexponent
  cases he
  cases hf with
  | digits hne _ => exact absurd rfl hne
  | none =>
    intro b hb
    rw [List.append_nil, List.append_nil] at hb
    have hdigit : ∀ a ∈ List.map digitByte _, ∃ d < 10, a = digitByte d := fun a ha => by
      obtain ⟨d, hd, rfl⟩ := List.mem_map.1 ha
      exact ⟨d, hwhole.lt_ten d hd, rfl⟩
    split at hb
    · rcases List.mem_cons.1 hb with rfl | hb
      · exact Or.inl rfl
      · exact Or.inr (hdigit b hb)
    · exact Or.inr (hdigit b hb)

/-- A number that is written like an integer is not the text of a double. -/
theorem NumberToken.Spelled.ne_realText {t : NumberToken} {s : Bytes} (h : t.Spelled s)
    (hfraction : t.fraction = []) (hexponent : t.exponent = none) (x : Float) :
    s ≠ Text.encode (layout.realText x) := by
  rintro rfl
  obtain ⟨c, hc, hmark⟩ := Layout.exists_mark x
  have hall : ∀ d < 10, digitByte d ≠ 46 ∧ digitByte d ≠ 101 ∧ digitByte d ≠ 110 := by decide
  have hbyte : ∀ b, String.utf8EncodeChar c = [b] → b = 45 ∨ ∃ d < 10, b = digitByte d :=
    fun b hb => h.bytes hfraction hexponent b
      (List.mem_flatMap.2 ⟨c, hc, by rw [hb]; exact List.mem_singleton_self b⟩)
  rcases hmark with rfl | rfl | rfl
  · rcases hbyte 46 (by decide) with hb | ⟨d, hd, hb⟩
    · cases hb
    · exact (hall d hd).1 hb.symm
  · rcases hbyte 101 (by decide) with hb | ⟨d, hd, hb⟩
    · cases hb
    · exact (hall d hd).2.1 hb.symm
  · rcases hbyte 110 (by decide) with hb | ⟨d, hd, hb⟩
    · cases hb
    · exact (hall d hd).2.2 hb.symm

/-- The text of a number as it is written. -/
def Form.numberText? : Form → Option Bytes
  | .integer i => some (Text.encode (toString i))
  | .real _ text => some text
  | _ => none

end Json

namespace Payload

open Json (SpelledFraction Form TextOf Document NumberToken Spelled Writes WritesMembers blank_nil
  memberValues?)

theorem extractJson_of_parse {payload : Bytes} {key : String} {v : Json}
    (h : Json.parse payload = .ok v) :
    extractJson payload key = (jsonScalar key (v.member? key)).map Text.encode := by
  unfold extractJson
  rw [h]
  cases hscalar : jsonScalar key (v.member? key) <;> simp [hscalar, bind, Except.bind, pure,
    Except.pure, Except.map]

/-! ## Members -/

/-- What is taken out for a member. -/
inductive Extracted (key : String) : Json → Except Fault Bytes → Prop
  | null : Extracted key .null (.error (.missingKey ⟨.json, key⟩))
  | string (s : String) : Extracted key (.string s) (.ok (Text.encode s))
  | true : Extracted key (.bool true) (.ok (Text.encode "true"))
  | false : Extracted key (.bool false) (.ok (Text.encode "false"))
  | integer (i : Int) : Extracted key (.number (.int i)) (.ok (Text.encode (toString i)))
  | real (x : Float) :
      Extracted key (.number (.real x)) (.ok (Text.encode (Json.layout.realText x)))
  | array (items : List Json) :
      Extracted key (.array items) (.error (.notScalar ⟨.json, key⟩))
  | object (members : List (String × Json)) :
      Extracted key (.object members) (.error (.notScalar ⟨.json, key⟩))

theorem extracted_jsonScalar (key : String) (v : Json) :
    Extracted key v ((jsonScalar key (some v)).map Text.encode) := by
  match v with
  | .null => exact .null
  | .string s => exact .string s
  | .bool true => exact .true
  | .bool false => exact .false
  | .number (.int i) => exact .integer i
  | .number (.real x) => exact .real x
  | .array items => exact .array items
  | .object members => exact .object members

/-- **The last member of a key is taken out, and nothing else is looked at.** Of any text of an
object, with any escapes and white space, the last member whose key is the one that is asked for
decides. The key is missing when there is none or when the text is that of another value, and what
is no text of a value is refused as JSON. -/
theorem extracts_last_member (payload : Bytes) (key : String) :
    (∀ ms, TextOf (.object ms) payload → key ∉ ms.map Prod.fst →
      extractJson payload key = .error (.missingKey ⟨.json, key⟩)) ∧
    (∀ before v after, TextOf (.object (before ++ (key, v) :: after)) payload →
      key ∉ after.map Prod.fst → Extracted key v (extractJson payload key)) ∧
    (∀ v, TextOf v payload → (∀ ms, v ≠ .object ms) →
      extractJson payload key = .error (.missingKey ⟨.json, key⟩)) ∧
    ((¬ ∃ v, TextOf v payload) →
      ∃ fault, extractJson payload key = .error (.json fault)) := by
  refine ⟨fun ms htext hkey => ?_, fun before v after htext hkey => ?_, fun v htext hother => ?_,
    fun hnone => ?_⟩
  · rw [extractJson_of_parse (Json.parse_eq_ok_iff.2 htext), Json.member?,
      Json.lastOf?_of_not_mem hkey]
    rfl
  · rw [extractJson_of_parse (Json.parse_eq_ok_iff.2 htext), Json.member?,
      Json.lastOf?_of_last hkey]
    exact extracted_jsonScalar key v
  · have hmember : v.member? key = none := by
      cases v with
      | object ms => exact absurd rfl (hother ms)
      | _ => rfl
    rw [extractJson_of_parse (Json.parse_eq_ok_iff.2 htext), hmember]
    rfl
  · cases hparse : Json.parse payload with
    | ok v => exact absurd ⟨v, Json.parse_eq_ok_iff.1 hparse⟩ hnone
    | error fault =>
      refine ⟨fault, ?_⟩
      unfold extractJson
      rw [hparse]
      rfl

/-- The text has the key `k` twice, and again inside of the object of its first member. -/
theorem extracts_last_member_repeated :
    let ms : List (String × Json) := [("k", .object [("k", .bool true)])]
    -- The texts are those of an object, of a list and of nothing.
    let payload : Bytes := [123, 34, 107, 34, 58, 123, 34, 107, 34, 58, 116, 114, 117, 101, 125, 44,
      34, 92, 117, 48, 48, 54, 98, 34, 32, 58, 45, 55, 125]
    let items : Bytes := [91, 49, 93]
    let cut : Bytes := [123, 34]
    TextOf (.object (ms ++ ("k", .number (.int (-7))) :: [])) payload ∧
      extractJson payload "k" = .ok (Text.encode "-7") ∧
      extractJson payload "l" = .error (.missingKey ⟨.json, "l"⟩) ∧
      TextOf (.array [.number (.int 1)]) items ∧
      extractJson items "k" = .error (.missingKey ⟨.json, "k"⟩) ∧
      (¬ ∃ v, TextOf v cut) ∧ ∃ fault, extractJson cut "k" = .error (.json fault) := by
  intro ms payload items cut
  have hpayload : TextOf (.object (ms ++ ("k", .number (.int (-7))) :: [])) payload :=
    Json.parse_eq_ok_iff.1 rfl
  have hitems : TextOf (.array [.number (.int 1)]) items :=
    Json.parse_eq_ok_iff.1 rfl
  have hcut : ¬ ∃ v, TextOf v cut := by
    rintro ⟨v, h⟩
    have herror : Json.parse cut = .error ⟨.endInString, 1, 2⟩ := rfl
    cases herror.symm.trans (Json.parse_eq_ok_iff.2 h)
  obtain ⟨-, hlast, -, -⟩ := extracts_last_member payload "k"
  obtain ⟨hmissing, -, -, -⟩ := extracts_last_member payload "l"
  obtain ⟨-, -, hother, -⟩ := extracts_last_member items "k"
  obtain ⟨-, -, -, hnone⟩ := extracts_last_member cut "k"
  have hinteger : ∀ {i : Int} {r : Except Fault Bytes},
      Extracted "k" (.number (.int i)) r → r = .ok (Text.encode (toString i)) := by
    rintro i r ⟨⟩
    rfl
  exact ⟨hpayload, hinteger (hlast _ _ _ hpayload (by decide)), hmissing _ hpayload (by decide),
    hitems, hother _ hitems (fun ms h => by cases h), hcut, hnone hcut⟩

/-! ## Numbers -/

/-- The texts of objects with one member of the key `n` are documents. -/
theorem document_of_member {t : Bytes} {f : Form} (h : Writes 126 f t) :
    Document (.object [("n", f)]) ([123, 34, 110, 34, 58] ++ (t ++ [125])) := by
  have hkey : Spelled "n".toList [110] :=
    .cons (s := [110]) (.plain (c := 'n') (by decide) (by decide) (by decide)) .nil
  have hmember := WritesMembers.last (.mk hkey blank_nil blank_nil) h blank_nil
  exact ⟨[], _, [], blank_nil, blank_nil, .object blank_nil hmember, by simp⟩

/-- **A number is taken out as it is written exactly when it is an integer of 64 bits, or has a
fraction or an exponent and is the text of the double that it is read as.** No other integer is: not
one beyond 64 bits, and not a zero with a minus sign. -/
theorem number_kept_iff {payload t : Bytes} {key : String} {f : Form} {v : Json}
    {before after : List (String × Form)}
    (hdocument : Document (.object (before ++ (key, f) :: after)) payload)
    (hvalue : (Form.object (before ++ (key, f) :: after)).value? = some v)
    (hlast : key ∉ after.map Prod.fst) (ht : f.numberText? = some t) :
    extractJson payload key = .ok t ↔
      (∃ i, f = .integer i) ∨
      ∃ token x, f = .real token t ∧ (token.fraction ≠ [] ∨ token.exponent ≠ none) ∧
        token.real [] = .ok x ∧ t = Text.encode (Json.layout.realText x) := by
  obtain ⟨depth, s, htext⟩ := hdocument.exists_writes (List.mem_append_right _ List.mem_cons_self)
  rw [Form.value?, Option.map_eq_some_iff] at hvalue
  obtain ⟨ms, hms, rfl⟩ := hvalue
  obtain ⟨front, w, back, rfl, hw, hback⟩ := Json.exists_members hms
  have hextract : extractJson payload key = (jsonScalar key (some w)).map Text.encode := by
    rw [extractJson_of_parse (Json.parse_of_document hdocument
      (by rw [Form.value?, hms, Option.map_some])), Json.member?,
      Json.lastOf?_of_last (hback ▸ hlast)]
  rw [hextract]
  cases f with
  | integer i =>
    cases hw
    cases ht
    exact ⟨fun _ => Or.inl ⟨i, rfl⟩, fun _ => rfl⟩
  | real token text =>
    cases ht
    rw [Form.value?] at hw
    cases hx : token.real [] with
    | error e =>
      rw [hx] at hw
      cases hw
    | ok x =>
      rw [hx] at hw
      cases hw
      have hspelled : token.Spelled t := htext.spelled
      constructor
      · intro h
        have hkept : t = Text.encode (Json.layout.realText x) := (Except.ok.inj h).symm
        refine Or.inr ⟨token, x, rfl, ?_, hx, hkept⟩
        by_contra hplain
        obtain ⟨hfraction, hexponent⟩ := not_or.1 hplain
        exact hspelled.ne_realText (not_not.1 hfraction) (not_not.1 hexponent) x hkept
      · rintro (⟨i, h⟩ | ⟨token', x', h, -, hx', hkept⟩)
        · cases h
        · cases h
          cases hx.symm.trans hx'
          rw [hkept]
          rfl
  | _ => cases ht

/-- A number with a fraction, which is taken out as it is written. -/
theorem number_kept_iff_fraction :
    let token : NumberToken := ⟨false, [2], [5], none⟩
    let t := Text.encode "2.5"
    let payload := Text.encode "\x7b\"n\":2.5\x7d"
    Document (.object ([] ++ ("n", .real token t) :: [])) payload ∧
      extractJson payload "n" = .ok t := by
  intro token t payload
  have hspelled : token.Spelled t :=
    ⟨t, .mk (f := [46, 53]) (e := []) ⟨by decide, by decide, by decide⟩
      (@SpelledFraction.digits [5] (by decide) (by decide)) .none, rfl⟩
  have hdocument : Document (.object ([] ++ ("n", .real token t) :: [])) payload :=
    document_of_member (.real hspelled (by decide))
  obtain ⟨x, hx, hkept⟩ : ∃ x, token.real [] = .ok x ∧
      t = Text.encode (Json.layout.realText x) := by
    have htext : (token.real []).map (fun x => Text.encode (Json.layout.realText x)) = .ok t := by
      decide +kernel
    obtain ⟨x, hx, hkept⟩ := map_eq_ok_iff.1 htext
    exact ⟨x, hx, hkept.symm⟩
  have hvalue : (Form.object [("n", .real token t)]).value? =
      some (.object [("n", .number (.real x))]) := by
    simp [Form.value?, memberValues?, hx, Except.toOption]
  exact ⟨hdocument, (number_kept_iff hdocument hvalue (by decide) rfl).2
    (Or.inr ⟨token, x, rfl, Or.inl (by decide), hx, hkept⟩)⟩

/-- An integer beyond 64 bits is rounded. -/
theorem number_rounded :
    let token : NumberToken :=
      ⟨false, [1, 8, 4, 4, 6, 7, 4, 4, 0, 7, 3, 7, 0, 9, 5, 5, 1, 6, 1, 6], [], none⟩
    let t := Text.encode "18446744073709551616"
    let payload := Text.encode "\x7b\"n\":18446744073709551616\x7d"
    Document (.object [("n", .real token t)]) payload ∧
      extractJson payload "n" = .ok (Text.encode "1.8446744073709552e+19") ∧
      extractJson payload "n" ≠ .ok t := by
  intro token t payload
  have hspelled : token.Spelled t :=
    ⟨t, .mk (f := []) (e := []) ⟨by decide, by decide, by decide⟩ .none .none, rfl⟩
  have hextract : extractJson payload "n" = .ok (Text.encode "1.8446744073709552e+19") := by
    decide +kernel
  refine ⟨document_of_member (.real hspelled (by decide)), hextract, ?_⟩
  rw [hextract]
  decide

end Payload

end SecretMount
