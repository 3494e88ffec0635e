import SecretMount.Proofs.Nodes
import SecretMount.Proofs.Readings
import SecretMount.Yaml.Value

/-!
# YAML values of JSON texts

* `Value.ofPlain_toString` : the integers of JSON texts are integers of YAML;
* `Document.shows_of_read` : the root of the document that is read from a text of an object;
* `Value.Of`, `Value.OfMember` : the value of a form, down to its first level, and the entry of a
  member;
* `Value.of_parse` : what a text of an object is read as.
-/

namespace SecretMount

/-! ## Integers -/

namespace Yaml.Schema

/-- The digits of a number stand for it. -/
theorem magnitude_toString (n : Nat) :
    Numeral.Spelled 10 (toString n).toList n ∧ Magnitude (toString n).toList n := by
  obtain ⟨ds, hds, rfl⟩ := Json.exists_canonical n
  have hdigits : (toString (Json.decimal ds)).toList = ds.map Nat.digitChar := by
    rw [Nat.toString_eq_ofList_toDigits, String.toList_ofList, Json.toDigits_decimal hds]
  have hspelled : Numeral.Spelled 10 (ds.map Nat.digitChar) (Json.decimal ds) := by
    refine ⟨by simpa using hds.ne_nil, ds, ?_, (Numeral.foldl_eq_ofDigits 10 ds).symm⟩
    exact List.forall₂_map_left_iff.2
      (List.forall₂_same.2 fun d hd => ⟨hds.lt_ten d hd, Or.inl rfl⟩)
  rw [hdigits]
  refine ⟨hspelled, .decimal hspelled fun hhead => ?_⟩
  obtain ⟨d, r, rfl⟩ := List.exists_cons_of_ne_nil hds.ne_nil
  have hall : ∀ d < 10, Nat.digitChar d = '0' → d = 0 := by decide
  obtain rfl := hall d (hds.lt_ten d List.mem_cons_self) (Option.some.inj hhead)
  rw [hds.zero_alone rfl]
  rfl

/-- The text of an integer of 64 bits is read as it. -/
theorem int?_toString {i : Int} (h : Json.Fits i) : ∃ a x, (toString i).toList = a :: x ∧
    (a = '-' ∨ a.isDigit = true) ∧ int? 64 (toString i).toList = some i := by
  have hint : IsInteger (toString i).toList i → int? 64 (toString i).toList = some i := by
    have hmax : Numeral.max64 = 0xFFFFFFFFFFFFFFFF := rfl
    obtain ⟨hlow, hhigh⟩ := h
    exact fun hi => int?_eq_some_iff.2 ⟨hi, hlow, by omega⟩
  cases i with
  | ofNat n =>
    obtain ⟨hspelled, hmagnitude⟩ := magnitude_toString n
    obtain ⟨a, x, hcons⟩ := List.exists_cons_of_ne_nil hspelled.1
    have hdigits := isDigit_of_spelled hspelled
    rw [hcons, List.all_cons, Bool.and_eq_true] at hdigits
    exact ⟨a, x, hcons, Or.inr hdigits.1, hint (.unsigned hmagnitude)⟩
  | negSucc n =>
    obtain ⟨-, hmagnitude⟩ := magnitude_toString (n + 1)
    have hcons : (toString (Int.negSucc n)).toList = '-' :: (toString (n + 1)).toList :=
      String.toList_append (s := "-")
    refine ⟨_, _, hcons, Or.inl rfl, hint ?_⟩
    rw [hcons]
    exact .minus hmagnitude

end Yaml.Schema

namespace Yaml.Value

theorem ofPlain_toString {i : Int} (h : Json.Fits i) :
    ofPlain (toString i) = .ok (.number (.int i)) := by
  obtain ⟨a, x, hs, ha, hint⟩ := Schema.int?_toString h
  generalize toString i = s at hs hint ⊢
  have hne : ∀ t : String, t.toList.head?.all (fun b => b != '-' && !b.isDigit) = true →
      (s == t) = false := by
    intro t ht
    rw [beq_eq_false_iff_ne]
    rintro rfl
    rw [hs] at ht
    rcases ha with rfl | ha
    · cases ht
    · simp [ha] at ht
  have hempty : s.isEmpty = false := by
    rw [String.isEmpty_eq_false_iff]
    rintro rfl
    cases hs
  have hnull : Schema.isNull s = false := by
    unfold Schema.isNull
    rw [hne "null" (by decide), hne "Null" (by decide), hne "NULL" (by decide), hne "~" (by decide)]
    rfl
  have hbool : Schema.bool? s = none := by
    unfold Schema.bool?
    rw [hne "true" (by decide), hne "True" (by decide), hne "TRUE" (by decide),
      hne "false" (by decide), hne "False" (by decide), hne "FALSE" (by decide)]
    rfl
  unfold ofPlain
  rw [hempty, hnull, hbool, hint]
  rfl

end Yaml.Value

namespace Yaml

open Json (Form)

/-! ## Documents -/

/-- **The root of the document that is read from a text of an object.** -/
theorem Document.shows_of_read {fs : List (String × Form)} {bs : Bytes} {d : Document}
    (hdocument : Json.Document (.object fs) bs)
    (hunbroken : ∀ a ∈ (Source.read bs).text, Unbroken a)
    (h : Document.read bs = .ok d) (hfault : d.fault = none) :
    ∃ es, Shows (.object fs) d.root es := by
  obtain ⟨tail, hbytes, htail⟩ := Source.read_bytes bs
  have hunread : (Lexer.start (Source.read bs).text (Source.read bs).cut).Unread .fresh 0
      ((Form.object fs).lexemes ++ [.stop]) :=
    ⟨rfl, rfl, rfl, Nat.le_refl _, hunbroken, ⟨bs, hdocument.spells, tail, hbytes, htail⟩,
      fun _ => rfl⟩
  have hstart : (⟨.start (Source.read bs).text (Source.read bs).cut, [], []⟩ : Parser).Before []
      (2 * (Source.read bs).text.length + 1) ((Form.object fs).lexemes ++ [.stop]) :=
    ⟨⟨_, .nil _, Or.inr ⟨.fresh, 0, hunread, fun h => by cases h⟩⟩, rfl,
      Nat.le_of_eq (Nat.zero_add _)⟩
  unfold Document.read at h
  dsimp only at h
  split at h
  · cases h
    cases hfault
  · next p hrun =>
    have hp : ∃ tree es, Shows (.object fs) tree es ∧ p.events = es.reverse := by
      unfold Parser.document at hrun
      obtain ⟨t, q, hpeek, hrun⟩ := Parsing.bind_eq_ok hrun
      obtain ⟨ys, htake, hq⟩ := hstart.peek (lexemes_ne_nil _ _) hpeek
      obtain ⟨htoken, -⟩ := hq.takes htake (fun _ h => by cases h)
      replace htoken : t.token = .flowMapping := htoken
      rw [htoken] at hrun
      obtain ⟨_, r, hnode, hrun⟩ := Parsing.bind_eq_ok hrun
      -- The fuel is sixteen times the characters, and these stand for two tokens each at most.
      obtain ⟨tree, es, hshows, m, -, hr⟩ := Parser.shows_of_node (.object fs) hq htake
        (by omega) hnode
      refine ⟨tree, es, hshows, ?_⟩
      unfold Parser.documentEnd at hrun
      obtain ⟨t', r', hpeek', hrun⟩ := Parsing.bind_eq_ok hrun
      obtain ⟨zs, htake', hr'⟩ := hr.peek (List.cons_ne_nil _ _) hpeek'
      obtain ⟨htoken', hr'⟩ := hr'.takes htake' (fun _ h => by cases h)
      replace htoken' : t'.token = .streamEnd := htoken'
      rw [htoken', if_neg (by decide)] at hrun
      cases hrun
      rw [hr'.events, List.append_nil]
    obtain ⟨tree, es, hshows, hevents⟩ := hp
    have hempty : p.events.isEmpty = false := by
      rw [hevents, List.isEmpty_reverse]
      cases hshows <;> rfl
    rw [hempty] at h
    cases h
    refine ⟨es, ?_⟩
    rw [Document.ofEvents, hevents, List.reverse_reverse, hshows.ofEvents]
    exact hshows

/-! ## Values -/

/-- `v` is the value of a form, as far as it shows whether it is a scalar and which. -/
def Value.Of : Form → Value → Prop
  | .string s, v => v = .string s
  | .array _, v => ∃ items, v = .list items
  | .object _, v => ∃ entries, v = .mapping entries
  | f, v => Value.ofPlain f.word = .ok v

namespace Value

theorem of_word {f : Form} {v : Value} (hf : f.lexemes = [.word f.word])
    (hv : ofPlain f.word = .ok v) : Of f v := by
  cases f with
  | null | bool _ | integer _ | real _ _ => exact hv
  | string _ | array _ | object _ => cases hf

theorem read_mapping {d : Document} {depth n m : Nat} {path : Path} {entries : List (Tree × Tree)}
    {mark : Mark} {v : Value}
    (h : (read d depth path (.mapping none entries mark)).run n = .ok (v, m)) :
    ∃ depth vs, (readEntries (read d depth) path mark [] entries).run n = .ok (vs, m) ∧
      v = .mapping vs := by
  unfold read at h
  obtain ⟨t, l, hfollow, h⟩ := Reading.bind_eq_ok_iff.1 h
  cases hfollow
  cases depth with
  | zero => cases h
  | succ depth =>
    obtain ⟨vs, l, hentries, h⟩ := Reading.bind_eq_ok_iff.1 h
    cases h
    exact ⟨depth, vs, hentries, rfl⟩

/-- What is read from a node of a form is its value. -/
theorem of_read {d : Document} {depth n m : Nat} {path : Path} {f : Form} {tree : Tree}
    {es : List Event} {v : Value} (h : Shows f tree es)
    (hread : (read d depth path tree).run n = .ok (v, m)) : Of f v := by
  cases h with
  | word hf mark =>
    have hscalar : ofScalar (if (Schema.customName? none).isSome then none else none)
        ⟨none, f.word, .plain⟩ = ofPlain f.word := rfl
    unfold read at hread
    obtain ⟨t, l, hfollow, hread⟩ := Reading.bind_eq_ok_iff.1 hread
    cases hfollow
    dsimp only at hread
    rw [hscalar] at hread
    split at hread
    · next hplain =>
      cases hread
      exact of_word hf hplain
    · cases hread
  | string s mark =>
    unfold read at hread
    obtain ⟨t, l, hfollow, hread⟩ := Reading.bind_eq_ok_iff.1 hread
    cases hfollow
    cases hread
    rfl
  | array h mark =>
    unfold read at hread
    obtain ⟨t, l, hfollow, hread⟩ := Reading.bind_eq_ok_iff.1 hread
    cases hfollow
    cases depth with
    | zero => cases hread
    | succ depth =>
      obtain ⟨items, l, -, hread⟩ := Reading.bind_eq_ok_iff.1 hread
      cases hread
      exact ⟨items, rfl⟩
  | object h mark =>
    obtain ⟨-, vs, -, rfl⟩ := read_mapping hread
    exact ⟨vs, rfl⟩

/-- An entry that a member becomes. -/
def OfMember (member : String × Form) (entry : Value × Value) : Prop :=
  entry.1 = .string member.1 ∧ Of member.2 entry.2

theorem of_readEntries {d : Document} {depth : Nat} {path : Path} {mark : Mark} :
    ∀ {fs : List (String × Form)} {entries : List (Tree × Tree)} {es : List Event}
      {before vs : List (Value × Value)} {n m : Nat}, ShowsMembers fs entries es →
      (readEntries (read d depth) path mark before entries).run n = .ok (vs, m) →
      ∃ new, vs = before ++ new ∧ List.Forall₂ OfMember fs new
  | _, _, _, _, _, _, _, .nil, h => by
    cases h
    exact ⟨[], (List.append_nil _).symm, .nil⟩
  | _, _, _, before, _, _, _, .cons (k := k) mark hf hfs, h => by
    unfold readEntries at h
    obtain ⟨key, l, hkey, h⟩ := Reading.bind_eq_ok_iff.1 h
    obtain rfl : key = .string k := of_read (.string k mark) hkey
    split at h
    · cases h
    · obtain ⟨v, l', hv, h⟩ := Reading.bind_eq_ok_iff.1 h
      obtain ⟨new, rfl, hnew⟩ := of_readEntries hfs h
      exact ⟨(.string k, v) :: new, by rw [List.append_assoc, List.singleton_append],
        .cons ⟨rfl, of_read hf hv⟩ hnew⟩

/-- **The members of an object are the entries of the mapping that is read from a text of it.** -/
theorem of_parse {fs : List (String × Form)} {bs : Bytes} {v : Value}
    (hdocument : Json.Document (.object fs) bs)
    (hunbroken : ∀ a ∈ (Source.read bs).text, Unbroken a)
    (h : parse bs = .ok v) :
    ∃ entries, v = .mapping entries ∧ List.Forall₂ OfMember fs entries := by
  unfold parse readDocument at h
  obtain ⟨d, hd, h⟩ := bind_eq_ok_iff.1 h
  obtain ⟨w, hw, h⟩ := bind_eq_ok_iff.1 h
  split at h
  · cases h
  · next hfault =>
    obtain ⟨es, hshows⟩ := Document.shows_of_read hdocument hunbroken hd hfault
    obtain rfl : w = v := by
      split at h
      · exact Except.ok.inj h
      · cases h
    obtain ⟨⟨w', n⟩, hrun, rfl⟩ := map_eq_ok_iff.1 hw
    generalize d.root = tree at hshows hrun
    cases hshows with
    | word hf _ => cases hf
    | object hmembers mark =>
      obtain ⟨depth, vs, hentries, rfl⟩ := read_mapping hrun
      obtain ⟨new, rfl, hnew⟩ := of_readEntries hmembers hentries
      exact ⟨_, rfl, hnew⟩

/-- The entries of a mapping are looked up like the members of its object. -/
theorem member?_of {key : String} : ∀ {fs : List (String × Form)} {entries : List (Value × Value)},
    List.Forall₂ OfMember fs entries →
      key ∉ fs.map Prod.fst ∧ (mapping entries).member? key = none ∨
      ∃ f v, (key, f) ∈ fs ∧ (mapping entries).member? key = some v ∧ Of f v
  | _, _, .nil => Or.inl ⟨List.not_mem_nil, rfl⟩
  | (k, f) :: fs, (_, v) :: entries, .cons ⟨rfl, hv⟩ h => by
    by_cases hk : k = key
    · refine Or.inr ⟨f, v, hk ▸ List.mem_cons_self, ?_, hv⟩
      rw [member?, List.findSome?_cons]
      simp [hk]
    · have hmember : (mapping ((.string k, v) :: entries)).member? key =
          (mapping entries).member? key := by
        rw [member?, List.findSome?_cons]
        simp [hk, member?]
      rw [hmember]
      rcases member?_of h with ⟨hnot, hnone⟩ | ⟨g, w, hmem, hw⟩
      · refine Or.inl ⟨?_, hnone⟩
        rw [List.map_cons, List.mem_cons, not_or]
        exact ⟨Ne.symm hk, hnot⟩
      · exact Or.inr ⟨g, w, List.mem_cons_of_mem _ hmem, hw⟩

end Value

end Yaml

end SecretMount
