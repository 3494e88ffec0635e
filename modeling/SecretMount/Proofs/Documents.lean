import SecretMount.Proofs.Integers
import SecretMount.Proofs.Quotation

/-!
# Texts of JSON values

* `Json.Reads` : a value is read from a text, whatever stands behind it;
* `Json.Items`, `Json.Member`, `Json.Members` : what stands between the brackets of a list and the
  braces of an object, white space included;
* `Json.reads_string`, `Json.reads_integer`, `Json.reads_array`, `Json.reads_object` : the texts of
  the values, each from those of its parts;
* `Json.Covered` : values that a shape takes as they are, without real numbers. `Json.reads_text` :
  these are read from the text that is written for them.
-/

namespace SecretMount.Json

/-! ## White space -/

theorem blank_nil : Blank [] := nofun

theorem dropSpace_cons {b : UInt8} {r : Bytes} (h : isSpace b = false) :
    dropSpace (b :: r) = b :: r :=
  List.dropWhile_cons_of_neg (by simp [h])

/-- What is left without the white space in front holds all that stands behind another byte. -/
theorem length_lt_dropSpace {b : UInt8} (hb : isSpace b = false) (s r : Bytes) :
    r.length < (dropSpace (s ++ b :: r)).length := by
  induction s with
  | nil =>
    rw [List.nil_append, dropSpace_cons hb]
    exact Nat.lt_succ_self _
  | cons a s ih =>
    by_cases ha : isSpace a = true
    · rw [List.cons_append, dropSpace, List.dropWhile_cons_of_pos ha]
      exact ih
    · rw [List.cons_append, dropSpace_cons (Bool.not_eq_true _ ▸ ha), List.length_cons,
        List.length_append, List.length_cons]
      omega

/-- What stands behind a key, an item or a member: a comma, a colon, a closing bracket or brace. -/
def marks : Bytes := [44, 58, 93, 125]

theorem mark_spec {b : UInt8} (hb : b ∈ marks) (r : Bytes) :
    isSpace b = false ∧ Ends (b :: r) := by
  simp only [marks, List.mem_cons, List.not_mem_nil, or_false] at hb
  refine ⟨?_, ?_⟩
  · rcases hb with rfl | rfl | rfl | rfl <;> decide
  · rintro x ⟨⟩
    rcases hb with rfl | rfl | rfl | rfl <;> decide

section Marks

variable {after : Bytes} (hafter : Blank after) {b : UInt8} (hb : b ∈ marks) (r : Bytes)

include hafter hb

theorem dropSpace_append_mark : dropSpace (after ++ b :: r) = b :: r := by
  rw [dropSpace_append hafter, dropSpace_cons (mark_spec hb r).1]

theorem ends_append_mark : Ends (after ++ b :: r) := by
  cases after with
  | nil => exact (mark_spec hb r).2
  | cons a after =>
    rintro x ⟨⟩
    exact ends_of_blank hafter a rfl

end Marks

/-! ## Values -/

/-- `v` is read from `s`, whatever ends `s`. -/
def Reads (depth : Nat) (shape : Shape) (s : Bytes) (v : Json) : Prop :=
  ∀ rest, Ends rest → readValue depth shape (s ++ rest) = .ok (v, rest)

variable {depth : Nat} {shape : Shape}

theorem reads_integer {i : Int} (h : Fits i) :
    Reads depth shape (Text.encode (toString i)) (.number (.int i)) :=
  fun _ hrest => readValue_integer h hrest

theorem reads_string {t : String} {s : Bytes} (h : Spelled t.toList s) :
    Reads depth shape (34 :: (s ++ [34])) (.string t) := by
  intro rest _
  have hstring : readString (s ++ [34] ++ rest) = .ok (t, rest) := by
    rw [List.append_assoc]
    exact readString_of_spelled h rest
  rw [List.cons_append, readValue_leaf (dropSpace_cons (by decide)) (by decide) (by decide)]
  unfold readLeaf
  rw [if_neg (by decide), if_neg (by decide), if_neg (by decide), if_pos rfl, hstring]
  rfl

theorem readValue_dropSpace (depth : Nat) (shape : Shape) (s : Bytes) :
    readValue depth shape (dropSpace s) = readValue depth shape s := by
  obtain ⟨before, hbefore, hs⟩ := exists_blank s
  exact (readValue_append hbefore _).symm.trans (congrArg _ hs.symm)

/-- A value does not start with a closing bracket. -/
theorem exists_cons_of_readValue {s : Bytes} {x : Json × Bytes}
    (h : readValue depth shape s = .ok x) : ∃ b r, dropSpace s = b :: r ∧ b ≠ 93 := by
  cases hs : dropSpace s with
  | nil =>
    unfold readValue at h
    rw [hs] at h
    cases h
  | cons b r =>
    refine ⟨b, r, rfl, ?_⟩
    rintro rfl
    rw [readValue_leaf hs (by decide) (by decide)] at h
    cases h

/-! ## Lists -/

/-- The items of a list from `index` on, with its closing bracket. -/
inductive Items (depth : Nat) (shape : Shape) : Nat → Bytes → List Json → Prop
  | last {index : Nat} {s after : Bytes} {v : Json} (hv : Reads depth (shape.item index) s v)
      (hafter : Blank after) : Items depth shape index (s ++ (after ++ [93])) [v]
  | more {index : Nat} {s after t : Bytes} {v : Json} {vs : List Json}
      (hv : Reads depth (shape.item index) s v) (hafter : Blank after)
      (ht : Items depth shape (index + 1) t vs) :
      Items depth shape index (s ++ (after ++ 44 :: t)) (v :: vs)

/-- Each item has a byte behind it that is no white space, so the white space in front of the first
does not count as one. -/
theorem Items.length_le {index : Nat} {t : Bytes} {vs : List Json}
    (h : Items depth shape index t vs) (rest : Bytes) :
    vs.length ≤ (dropSpace (t ++ rest)).length := by
  have hsplit : ∃ s b r, t = s ++ b :: r ∧ isSpace b = false ∧ vs.length ≤ r.length + 1 := by
    induction h with
    | @last _ s after v _ _ =>
      exact ⟨s ++ after, 93, [], (List.append_assoc _ _ _).symm, by decide, Nat.le_refl 1⟩
    | @more _ s after t v vs _ _ _ ih =>
      refine ⟨s ++ after, 44, t, (List.append_assoc _ _ _).symm, by decide, ?_⟩
      obtain ⟨s, b, r, rfl, -, hle⟩ := ih
      rw [List.length_append, List.length_cons, List.length_cons]
      omega
  obtain ⟨s, b, r, rfl, hb, hle⟩ := hsplit
  have hlt := length_lt_dropSpace hb s (r ++ rest)
  rw [List.append_assoc, List.cons_append]
  rw [List.length_append] at hlt
  omega

/-- White space in front of items that are read is passed over, and no bracket follows it. -/
theorem exists_cons_of_readItems {fuel index : Nat} {s : Bytes} {x : List Json × Bytes}
    (h : readItems (readValue depth) shape fuel index s = .ok x) :
    ∃ b r, dropSpace s = b :: r ∧ b ≠ 93 ∧
      readItems (readValue depth) shape fuel index (b :: r) = .ok x := by
  cases fuel with
  | zero => cases h
  | succ fuel =>
    obtain ⟨y, hvalue, -⟩ := bind_eq_ok_iff.1 h
    obtain ⟨b, r, hs, hb⟩ := exists_cons_of_readValue hvalue
    refine ⟨b, r, hs, hb, ?_⟩
    rw [← hs, readItems, readValue_dropSpace]
    exact h

/-- Fuel for each item is enough. -/
theorem readItems_of_items {index : Nat} {t : Bytes} {vs : List Json}
    (h : Items depth shape index t vs) : ∀ (fuel : Nat) (rest : Bytes), vs.length ≤ fuel →
      readItems (readValue depth) shape fuel index (t ++ rest) = .ok (vs, rest) := by
  induction h with
  | @last index s after v hv hafter =>
    intro fuel rest hfuel
    obtain ⟨fuel, rfl⟩ := Nat.exists_eq_add_of_le' hfuel
    have hvalue := hv _ (ends_append_mark hafter (show 93 ∈ marks by decide) rest)
    rw [List.append_assoc, List.append_assoc, List.singleton_append]
    refine bind_eq_ok_iff.2 ⟨_, hvalue, ?_⟩
    simp only [dropSpace_append_mark hafter (show 93 ∈ marks by decide)]
    rfl
  | @more index s after t v vs hv hafter ht ih =>
    intro fuel rest hfuel
    obtain ⟨fuel, rfl⟩ := Nat.exists_eq_add_of_le' (Nat.le_of_add_left_le hfuel)
    have hcomma : 44 ∈ marks := by decide
    have hvalue := hv _ (ends_append_mark hafter hcomma (t ++ rest))
    obtain ⟨b, r, hnext, hb, hitems⟩ :=
      exists_cons_of_readItems (ih fuel rest (Nat.le_of_succ_le_succ hfuel))
    rw [List.append_assoc, List.append_assoc, List.cons_append]
    refine bind_eq_ok_iff.2 ⟨_, hvalue, ?_⟩
    simp only [dropSpace_append_mark hafter hcomma, hnext]
    -- what follows the comma is an item, since one is read from it
    split
    · next heq => cases heq
    · next heq => exact absurd (List.cons.inj heq).1 hb
    · exact bind_eq_ok_iff.2 ⟨_, hitems, rfl⟩

theorem reads_array {t : Bytes} {vs : List Json} (h : Items depth shape 0 t vs) :
    Reads (depth + 1) shape (91 :: t) (.array vs) := by
  intro rest _
  have hlist : readList (readValue depth) shape (t ++ rest) = .ok (vs, rest) := by
    have hle := h.length_le rest
    have hitems := readItems_of_items h ((dropSpace (t ++ rest)).length + 1) rest (by omega)
    obtain ⟨b, r, hs, hb, hitems⟩ := exists_cons_of_readItems hitems
    unfold readList
    rw [hs] at hitems ⊢
    split
    · next heq => cases heq
    · next heq => exact absurd (List.cons.inj heq).1 hb
    · exact hitems
  unfold readValue
  rw [List.cons_append, dropSpace_cons (by decide)]
  simp only [hlist]
  rfl

theorem reads_array_nil {s : Bytes} (h : Blank s) :
    Reads (depth + 1) shape (91 :: (s ++ [93])) (.array []) := by
  intro rest _
  unfold readValue readList
  rw [List.cons_append, List.append_assoc, List.singleton_append, dropSpace_cons (by decide)]
  simp only [dropSpace_append_mark h (show 93 ∈ marks by decide)]
  rfl

/-! ## Objects -/

/-- A member of an object. -/
inductive Member (depth : Nat) (shape : Shape) : Bytes → String × Json → Prop
  | mk {k : String} {v : Json} {inner : Shape} {ks between s : Bytes} (hk : Spelled k.toList ks)
      (hbetween : Blank between) (hinner : shape.member? k = some inner)
      (hv : Reads depth inner s v) :
      Member depth shape (34 :: (ks ++ 34 :: (between ++ 58 :: s))) (k, v)

/-- The members of an object, with its closing brace. -/
inductive Members (depth : Nat) (shape : Shape) : Bytes → List (String × Json) → Prop
  | last {s after : Bytes} {m : String × Json} (hm : Member depth shape s m)
      (hafter : Blank after) : Members depth shape (s ++ (after ++ [125])) [m]
  | more {s after next t : Bytes} {m : String × Json} {ms : List (String × Json)}
      (hm : Member depth shape s m) (hafter : Blank after) (hnext : Blank next)
      (ht : Members depth shape t ms) :
      Members depth shape (s ++ (after ++ 44 :: (next ++ t))) (m :: ms)

theorem Member.read {s : Bytes} {m : String × Json} (h : Member depth shape s m) {rest : Bytes}
    (hrest : Ends rest) : ∃ r, readString ((s ++ rest).drop 1) = .ok (m.1, r) ∧
      readMember (readValue depth) shape m.1 r = .ok (some m.2, rest) := by
  obtain @⟨k, v, inner, ks, between, s, hk, hbetween, hinner, hv⟩ := h
  refine ⟨between ++ 58 :: (s ++ rest), ?_, ?_⟩
  · rw [List.cons_append, List.append_assoc, List.cons_append, List.append_assoc,
      List.cons_append, List.drop_one, List.tail_cons]
    exact readString_of_spelled hk _
  · unfold readMember
    simp only [dropSpace_append_mark hbetween (show 58 ∈ marks by decide), hinner, hv rest hrest]
    rfl

/-- Members start with the quote of a key, behind any white space. -/
theorem Members.dropSpace_append {t : Bytes} {ms : List (String × Json)}
    (h : Members depth shape t ms) {before : Bytes} (hbefore : Blank before) (rest : Bytes) :
    ∃ q, t ++ rest = 34 :: q ∧ dropSpace (before ++ t ++ rest) = 34 :: q := by
  obtain ⟨q, rfl⟩ : ∃ q, t = 34 :: q := by
    cases h with
    | last hm _ | more hm _ _ _ =>
      obtain ⟨⟩ := hm
      exact ⟨_, rfl⟩
  refine ⟨q ++ rest, rfl, ?_⟩
  rw [List.append_assoc, Json.dropSpace_append hbefore, List.cons_append,
    dropSpace_cons (by decide)]

theorem Members.length_le {t : Bytes} {ms : List (String × Json)}
    (h : Members depth shape t ms) : ms.length ≤ t.length := by
  induction h with
  | last _ _ =>
    simp only [List.length_singleton, List.length_append]
    omega
  | more _ _ _ _ ih =>
    simp only [List.length_cons, List.length_append]
    omega

theorem readMembers_of_members {t : Bytes} {ms : List (String × Json)}
    (h : Members depth shape t ms) : ∀ (fuel : Nat) (rest : Bytes), ms.length ≤ fuel →
      readMembers (readValue depth) shape fuel (t ++ rest) = .ok (ms, rest) := by
  induction h with
  | @last s after m hm hafter =>
    intro fuel rest hfuel
    obtain ⟨fuel, rfl⟩ := Nat.exists_eq_add_of_le' hfuel
    have hbrace : 125 ∈ marks := by decide
    obtain ⟨r, hkey, hmember⟩ := hm.read (ends_append_mark hafter hbrace rest)
    rw [List.append_assoc, List.append_assoc, List.singleton_append]
    refine bind_eq_ok_iff.2 ⟨_, hkey, bind_eq_ok_iff.2 ⟨_, hmember, ?_⟩⟩
    simp only [dropSpace_append_mark hafter hbrace]
    rfl
  | @more s after next t m ms hm hafter hnext ht ih =>
    intro fuel rest hfuel
    obtain ⟨fuel, rfl⟩ := Nat.exists_eq_add_of_le' (Nat.le_of_add_left_le hfuel)
    have hcomma : 44 ∈ marks := by decide
    have hmembers := ih fuel rest (Nat.le_of_succ_le_succ hfuel)
    obtain ⟨q, hq, hquote⟩ := ht.dropSpace_append hnext rest
    obtain ⟨r, hkey, hmember⟩ := hm.read (ends_append_mark hafter hcomma (next ++ t ++ rest))
    rw [hq] at hmembers
    rw [List.append_assoc, List.append_assoc, List.cons_append]
    refine bind_eq_ok_iff.2 ⟨_, hkey, bind_eq_ok_iff.2 ⟨_, hmember, ?_⟩⟩
    simp only [dropSpace_append_mark hafter hcomma, hquote]
    exact bind_eq_ok_iff.2 ⟨_, hmembers, rfl⟩

theorem reads_object {before t : Bytes} {ms : List (String × Json)} (hbefore : Blank before)
    (h : Members depth shape t ms) :
    Reads (depth + 1) shape (123 :: (before ++ t)) (.object ms) := by
  intro rest _
  have hobject : readObject (readValue depth) shape (before ++ t ++ rest) = .ok (ms, rest) := by
    obtain ⟨q, hq, hquote⟩ := h.dropSpace_append hbefore rest
    have hlength := congrArg List.length hq
    rw [List.length_append, List.length_cons] at hlength
    have hle := h.length_le
    have hmembers := readMembers_of_members h (q.length + 1) rest (by omega)
    rw [hq] at hmembers
    unfold readObject
    rw [hquote]
    exact hmembers
  unfold readValue
  rw [List.cons_append, dropSpace_cons (by decide)]
  simp only [hobject]
  rfl

theorem reads_object_nil {s : Bytes} (h : Blank s) :
    Reads (depth + 1) shape (123 :: (s ++ [125])) (.object []) := by
  intro rest _
  unfold readValue readObject
  rw [List.cons_append, List.append_assoc, List.singleton_append, dropSpace_cons (by decide)]
  simp only [dropSpace_append_mark h (show 125 ∈ marks by decide)]
  rfl

/-! ## Writing -/

/-- A value that `shape` takes as it is, with at most `depth` lists and objects in each other:
without real numbers, and with members that the shape knows only. -/
inductive Covered : Nat → Shape → Json → Prop
  | null {depth : Nat} {shape : Shape} : Covered depth shape .null
  | bool {depth : Nat} {shape : Shape} (b : Bool) : Covered depth shape (.bool b)
  | integer {depth : Nat} {shape : Shape} {i : Int} (h : Fits i) :
      Covered depth shape (.number (.int i))
  | string {depth : Nat} {shape : Shape} (t : String) : Covered depth shape (.string t)
  | array {depth : Nat} {shape : Shape} {vs : List Json}
      (h : ∀ i v, vs[i]? = some v → Covered depth (shape.item i) v) :
      Covered (depth + 1) shape (.array vs)
  | object {depth : Nat} {shape : Shape} {ms : List (String × Json)}
      (hknown : ∀ m ∈ ms, (shape.member? m.1).isSome = true)
      (h : ∀ m ∈ ms, ∀ inner ∈ shape.member? m.1, Covered depth inner m.2) :
      Covered (depth + 1) shape (.object ms)

theorem reads_null : Reads depth shape (Text.encode "null") .null := by
  intro rest _
  rw [show Text.encode "null" = [110, 117, 108, 108] by decide]
  exact readValue_leaf (dropSpace_cons (by decide)) (by decide) (by decide)

theorem reads_bool (b : Bool) : Reads depth shape (Text.encode (bool b).text) (.bool b) := by
  intro rest _
  cases b with
  | true =>
    rw [show Text.encode (bool true).text = [116, 114, 117, 101] by decide]
    exact readValue_leaf (dropSpace_cons (by decide)) (by decide) (by decide)
  | false =>
    rw [show Text.encode (bool false).text = [102, 97, 108, 115, 101] by decide]
    exact readValue_leaf (dropSpace_cons (by decide)) (by decide) (by decide)

theorem encode_comma : Text.encode "," = [44] := by decide

theorem items_text : ∀ {vs : List Json} {index : Nat}, vs ≠ [] →
    (∀ i v, vs[i]? = some v → Reads depth (shape.item (index + i)) (Text.encode v.text) v) →
      Items depth shape index (Text.encode (String.intercalate "," (itemTexts vs)) ++ [93]) vs
  | [], _, hne, _ => absurd rfl hne
  | [v], _, _, h => by
    rw [itemTexts, itemTexts, String.intercalate_singleton]
    exact (Items.last (h 0 v rfl) blank_nil :)
  | v :: w :: vs, index, _, h => by
    have hrest : Items depth shape (index + 1) _ (w :: vs) := items_text (List.cons_ne_nil _ _)
      fun i u hu => by
        rw [Nat.add_assoc, Nat.add_comm 1]
        exact h (i + 1) u hu
    rw [itemTexts, String.intercalate_cons_of_ne_nil (by simp [itemTexts]), Text.encode_append,
      Text.encode_append, encode_comma, List.append_assoc, List.append_assoc]
    exact (Items.more (h 0 v rfl) blank_nil hrest :)

theorem member_text {m : String × Json} {inner : Shape} (hinner : shape.member? m.1 = some inner)
    (h : Reads depth inner (Text.encode m.2.text) m.2) :
    Member depth shape (Text.encode (quote m.1 ++ ":" ++ m.2.text)) m := by
  obtain ⟨ks, hk, hquote⟩ := exists_spelled_quote m.1
  have hcolon : Text.encode ":" = [58] := by decide
  have hmember := Member.mk hk blank_nil hinner h
  rw [Text.encode_append, Text.encode_append, hquote, hcolon, List.append_assoc, List.cons_append,
    List.append_assoc]
  exact hmember

theorem members_text : ∀ {ms : List (String × Json)}, ms ≠ [] →
    (∀ m ∈ ms, Member depth shape (Text.encode (quote m.1 ++ ":" ++ m.2.text)) m) →
      Members depth shape (Text.encode (String.intercalate "," (memberTexts ms)) ++ [125]) ms
  | [], hne, _ => absurd rfl hne
  | [(k, v)], _, h => by
    rw [memberTexts, memberTexts, String.intercalate_singleton]
    exact (Members.last (h (k, v) List.mem_cons_self) blank_nil :)
  | (k, v) :: (l, w) :: ms, _, h => by
    obtain ⟨hm, hms⟩ := List.forall_mem_cons.1 h
    have hrest := members_text (List.cons_ne_nil _ _) hms
    rw [memberTexts, String.intercalate_cons_of_ne_nil (by simp [memberTexts]), Text.encode_append,
      Text.encode_append, encode_comma, List.append_assoc, List.append_assoc]
    exact (Members.more hm blank_nil blank_nil hrest :)

/-- **A value that a shape takes as it is is read from the text that is written for it.** -/
theorem reads_text {v : Json} (h : Covered depth shape v) :
    Reads depth shape (Text.encode v.text) v := by
  induction h with
  | null => exact reads_null
  | bool b => exact reads_bool b
  | integer h => exact reads_integer h
  | string t =>
    obtain ⟨s, hs, hquote⟩ := exists_spelled_quote t
    rw [Json.text, hquote]
    exact reads_string hs
  | @array depth shape vs _ ih =>
    have htext : Text.encode (array vs).text =
        91 :: (Text.encode (String.intercalate "," (itemTexts vs)) ++ [93]) := by
      rw [Json.text, Text.encode_append, Text.encode_append]
      rfl
    rw [htext]
    by_cases hvs : vs = []
    · subst hvs
      exact reads_array_nil blank_nil
    · refine reads_array (items_text hvs fun i v hv => ?_)
      rw [Nat.zero_add]
      exact ih i v hv
  | @object depth shape ms hknown _ ih =>
    have htext : Text.encode (object ms).text =
        123 :: (Text.encode (String.intercalate "," (memberTexts ms)) ++ [125]) := by
      rw [Json.text, Text.encode_append, Text.encode_append]
      rfl
    rw [htext]
    by_cases hms : ms = []
    · subst hms
      exact reads_object_nil blank_nil
    · have hmembers := members_text hms fun m hm => by
        obtain ⟨inner, hinner⟩ := Option.isSome_iff_exists.1 (hknown m hm)
        exact member_text hinner (ih m hm inner hinner)
      exact (reads_object blank_nil hmembers :)

theorem parseAs_text {v : Json} (h : Covered maxDepth shape v) :
    parseAs shape (Text.encode v.text) = .ok v := by
  have hvalue := reads_text h [] nofun
  rw [List.append_nil] at hvalue
  exact mapError_eq_ok_iff.2 (bind_eq_ok_iff.2 ⟨_, hvalue, rfl⟩)

end SecretMount.Json
