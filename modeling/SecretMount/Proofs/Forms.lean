import SecretMount.Proofs.Documents

/-!
# The grammar of JSON texts

A text is written from a form: a value of which the numbers that are no integers of 64 bits keep
their text.

* `NumberToken.Spelled` : the ways to write a number;
* `Json.Form`, `Form.value?` : what is written, and the value that it stands for, which is none when
  a number is out of range;
* `Json.Writes` : the texts of forms, with white space and all escapes, and with at most so many
  lists and objects in each other;
* `Json.Document` : a text with white space around it. `Json.parse_of_document` : its value is read
  from it.
-/

namespace SecretMount.Json

/-! ## Numbers -/

/-- The ways to write the digits behind a point. -/
inductive SpelledFraction : List Nat → Bytes → Prop
  | none : SpelledFraction [] []
  | digits {ds : List Nat} (hne : ds ≠ []) (hds : ∀ d ∈ ds, d < 10) :
      SpelledFraction ds (46 :: ds.map digitByte)

/-- The ways to write an exponent. -/
inductive SpelledExponent : Option (Bool × List Nat) → Bytes → Prop
  | none : SpelledExponent none []
  | unsigned {letter : UInt8} {ds : List Nat} (hletter : letter = 101 ∨ letter = 69)
      (hne : ds ≠ []) (hds : ∀ d ∈ ds, d < 10) :
      SpelledExponent (some (false, ds)) (letter :: ds.map digitByte)
  | signed {letter : UInt8} {negative : Bool} {ds : List Nat} (hletter : letter = 101 ∨ letter = 69)
      (hne : ds ≠ []) (hds : ∀ d ∈ ds, d < 10) :
      SpelledExponent (some (negative, ds))
        (letter :: (if negative then 45 else 43) :: ds.map digitByte)

namespace NumberToken

/-- The ways to write a number behind its sign. -/
inductive Magnitude : NumberToken → Bytes → Prop
  | mk {negative : Bool} {whole fraction : List Nat} {exponent : Option (Bool × List Nat)}
      {f e : Bytes} (hwhole : Canonical whole) (hf : SpelledFraction fraction f)
      (he : SpelledExponent exponent e) :
      Magnitude ⟨negative, whole, fraction, exponent⟩ (whole.map digitByte ++ (f ++ e))

/-- The ways to write a number. -/
def Spelled (t : NumberToken) (s : Bytes) : Prop :=
  ∃ m, t.Magnitude m ∧ s = if t.negative then 45 :: m else m

end NumberToken

/-! ## Forms -/

/-- A value as it is written. -/
inductive Form where
  | null
  | bool (b : Bool)
  /-- An integer of 64 bits. -/
  | integer (i : Int)
  /-- Any other number, with its text. -/
  | real (token : NumberToken) (text : Bytes)
  | string (s : String)
  | array (items : List Form)
  | object (members : List (String × Form))

mutual

/-- The value that a form stands for. -/
def Form.value? : Form → Option Json
  | .null => some .null
  | .bool b => some (.bool b)
  | .integer i => some (.number (.int i))
  | .real token _ => (token.real []).toOption.map fun x => .number (.real x)
  | .string s => some (.string s)
  | .array items => (itemValues? items).map .array
  | .object members => (memberValues? members).map .object

def itemValues? : List Form → Option (List Json)
  | [] => some []
  | f :: r => f.value?.bind fun v => (itemValues? r).map (v :: ·)

def memberValues? : List (String × Form) → Option (List (String × Json))
  | [] => some []
  | (k, f) :: r => f.value?.bind fun v => (memberValues? r).map ((k, v) :: ·)

end

/-- A key with its colon. -/
inductive WritesKey : String → Bytes → Prop
  | mk {k : String} {s between after : Bytes} (hk : Spelled k.toList s) (hbetween : Blank between)
      (hafter : Blank after) : WritesKey k (34 :: (s ++ 34 :: (between ++ 58 :: after)))

mutual

/-- `s` is a text of a form with at most `depth` lists and objects in each other. -/
inductive Writes : Nat → Form → Bytes → Prop
  | null {depth : Nat} : Writes depth .null [110, 117, 108, 108]
  | true {depth : Nat} : Writes depth (.bool true) [116, 114, 117, 101]
  | false {depth : Nat} : Writes depth (.bool false) [102, 97, 108, 115, 101]
  | integer {depth : Nat} {i : Int} (h : Fits i) :
      Writes depth (.integer i) (Text.encode (toString i))
  | real {depth : Nat} {token : NumberToken} {s : Bytes} (h : token.Spelled s)
      (hint : token.int? = none) : Writes depth (.real token s) s
  | string {depth : Nat} {t : String} {s : Bytes} (h : Spelled t.toList s) :
      Writes depth (.string t) (34 :: (s ++ [34]))
  | emptyArray {depth : Nat} {s : Bytes} (h : Blank s) :
      Writes (depth + 1) (.array []) (91 :: (s ++ [93]))
  | array {depth : Nat} {items : List Form} {s t : Bytes} (hs : Blank s)
      (h : WritesItems depth items t) : Writes (depth + 1) (.array items) (91 :: (s ++ t))
  | emptyObject {depth : Nat} {s : Bytes} (h : Blank s) :
      Writes (depth + 1) (.object []) (123 :: (s ++ [125]))
  | object {depth : Nat} {members : List (String × Form)} {s t : Bytes} (hs : Blank s)
      (h : WritesMembers depth members t) : Writes (depth + 1) (.object members) (123 :: (s ++ t))

/-- The items of a list and its closing bracket. -/
inductive WritesItems : Nat → List Form → Bytes → Prop
  | last {depth : Nat} {f : Form} {s after : Bytes} (h : Writes depth f s) (hafter : Blank after) :
      WritesItems depth [f] (s ++ (after ++ [93]))
  | more {depth : Nat} {f : Form} {items : List Form} {s after next t : Bytes}
      (h : Writes depth f s) (hafter : Blank after) (hnext : Blank next)
      (ht : WritesItems depth items t) :
      WritesItems depth (f :: items) (s ++ (after ++ 44 :: (next ++ t)))

/-- The members of an object and its closing brace. -/
inductive WritesMembers : Nat → List (String × Form) → Bytes → Prop
  | last {depth : Nat} {k : String} {f : Form} {q s after : Bytes} (hk : WritesKey k q)
      (h : Writes depth f s) (hafter : Blank after) :
      WritesMembers depth [(k, f)] (q ++ (s ++ (after ++ [125])))
  | more {depth : Nat} {k : String} {f : Form} {members : List (String × Form)}
      {q s after next t : Bytes} (hk : WritesKey k q) (h : Writes depth f s) (hafter : Blank after)
      (hnext : Blank next) (ht : WritesMembers depth members t) :
      WritesMembers depth ((k, f) :: members) (q ++ (s ++ (after ++ 44 :: (next ++ t))))

end

/-- The text of a form with white space around it. Lists and objects are nested 127 deep at most. -/
def Document (f : Form) (s : Bytes) : Prop :=
  ∃ before t after, Blank before ∧ Blank after ∧ Writes 127 f t ∧ s = before ++ (t ++ after)

/-! ## Reading numbers -/

theorem SpelledExponent.head {x : Option (Bool × List Nat)} {e r : Bytes}
    (h : SpelledExponent x e) (hr : Ends r) :
    NoDigit (e ++ r) ∧ ∀ b ∈ (e ++ r).head?, b ≠ 46 := by
  cases h with
  | none => exact ⟨hr.noDigit, fun b hb => (hr b hb).2.1⟩
  | unsigned hletter _ _ | signed hletter _ _ =>
    constructor
    · rintro b ⟨⟩
      rcases hletter with rfl | rfl <;> rfl
    · rintro b ⟨⟩
      rcases hletter with rfl | rfl <;> decide

theorem SpelledFraction.noDigit {ds : List Nat} {f r : Bytes} (h : SpelledFraction ds f)
    (hr : NoDigit r) : NoDigit (f ++ r) := by
  cases h with
  | none => exact hr
  | digits _ _ =>
    rintro b ⟨⟩
    rfl

theorem readFraction_of_spelled {ds : List Nat} {f r : Bytes} (h : SpelledFraction ds f)
    (hr : NoDigit r) (hpoint : ∀ b ∈ r.head?, b ≠ 46) : readFraction (f ++ r) = .ok (ds, r) := by
  cases h with
  | none =>
    rw [List.nil_append]
    unfold readFraction
    split
    · next r => exact absurd rfl (hpoint 46 rfl)
    · rfl
  | digits hne hds =>
    rw [List.cons_append]
    unfold readFraction
    simp only [takeDigits_append hds hr]
    split
    · next heq => exact absurd (Prod.mk.inj heq).1 hne
    · next heq => exact absurd (Prod.mk.inj heq).1 hne
    · next heq =>
      cases heq
      rfl

theorem readExponentSign_digits {ds : List Nat} {r : Bytes} (hne : ds ≠ [])
    (hds : ∀ d ∈ ds, d < 10) :
    readExponentSign (ds.map digitByte ++ r) = (false, ds.map digitByte ++ r) := by
  obtain ⟨d, ds, rfl⟩ := List.exists_cons_of_ne_nil hne
  have hall : ∀ d < 10, digitByte d ≠ 43 ∧ digitByte d ≠ 45 := by decide
  obtain ⟨hplus, hminus⟩ := hall d (hds d List.mem_cons_self)
  rw [List.map_cons, List.cons_append]
  unfold readExponentSign
  split
  · next heq => exact absurd (List.cons.inj heq).1 hplus
  · next heq => exact absurd (List.cons.inj heq).1 hminus
  · rfl

/-- The digits of an exponent behind its letter and its sign. -/
theorem readExponent_of_digits {letter : UInt8} {negative : Bool} {ds : List Nat} {s r : Bytes}
    (hletter : letter = 101 ∨ letter = 69) (hne : ds ≠ []) (hds : ∀ d ∈ ds, d < 10)
    (hr : NoDigit r) (hsign : readExponentSign s = (negative, ds.map digitByte ++ r)) :
    readExponent (letter :: s) = .ok (some (negative, ds), r) := by
  have htake := takeDigits_append hds hr
  unfold readExponent
  simp only [if_pos hletter, hsign]
  obtain ⟨d, ds, rfl⟩ := List.exists_cons_of_ne_nil hne
  rw [List.map_cons, List.cons_append] at htake ⊢
  simp only [htake]

theorem readExponent_of_spelled {x : Option (Bool × List Nat)} {e r : Bytes}
    (h : SpelledExponent x e) (hr : Ends r) : readExponent (e ++ r) = .ok (x, r) := by
  cases h with
  | none => exact readExponent_of_ends hr
  | unsigned hletter hne hds =>
    exact readExponent_of_digits hletter hne hds hr.noDigit (readExponentSign_digits hne hds)
  | @signed letter negative ds hletter hne hds =>
    refine readExponent_of_digits hletter hne hds hr.noDigit ?_
    cases negative <;> rfl

namespace NumberToken

theorem read_of_magnitude {t : NumberToken} {m r : Bytes} (h : t.Magnitude m) (hr : Ends r) :
    read t.negative (m ++ r) = .ok (t, r) := by
  obtain ⟨hwhole, hf, he⟩ := h
  obtain ⟨hdigit, hpoint⟩ := he.head hr
  rw [List.append_assoc, List.append_assoc]
  simp only [read, readWhole_of_canonical hwhole (hf.noDigit hdigit),
    readFraction_of_spelled hf hdigit hpoint, readExponent_of_spelled he hr, bind, Except.bind,
    pure, Except.pure]

theorem Magnitude.head {t : NumberToken} {m : Bytes} (h : t.Magnitude m) :
    ∃ d r, d < 10 ∧ m = digitByte d :: r := by
  obtain ⟨hwhole, -, -⟩ := h
  obtain ⟨d, ds, rfl⟩ := List.exists_cons_of_ne_nil hwhole.ne_nil
  exact ⟨d, _, hwhole.lt_ten d List.mem_cons_self, rfl⟩

/-- A number starts with a minus sign or a digit. -/
theorem Spelled.head {t : NumberToken} {s : Bytes} (h : t.Spelled s) :
    ∃ b r, s = b :: r ∧ (b = 45 ∨ ∃ d < 10, b = digitByte d) := by
  obtain ⟨m, hm, rfl⟩ := h
  split
  · exact ⟨45, m, rfl, Or.inl rfl⟩
  · obtain ⟨d, r, hd, rfl⟩ := hm.head
    exact ⟨digitByte d, r, rfl, Or.inr ⟨d, hd, rfl⟩⟩

/-- What follows a token only counts for the place of a fault. -/
theorem real_eq_ok_iff {t : NumberToken} {rest : Bytes} {x : Float} :
    t.real rest = .ok x ↔ t.real [] = .ok x := by
  unfold real
  cases t.exponent with
  | none => simp only; split <;> simp [stopBefore]
  | some e =>
    simp only
    split
    · split <;> simp [stopBefore]
    · split <;> simp

theorem value_of_real {t : NumberToken} {rest : Bytes} {x : Float} (hint : t.int? = none)
    (h : t.real rest = .ok x) : t.value rest = .ok (.real x) := by
  unfold value
  rw [hint, h]
  rfl

end NumberToken

theorem readLeaf_of_spelled {t : NumberToken} {s r rest : Bytes} {b : UInt8} {n : Number}
    (h : t.Spelled s) (hrest : Ends rest) (hvalue : t.value rest = .ok n)
    (hs : s ++ rest = b :: r) : readLeaf b r = .ok (.number n, rest) := by
  obtain ⟨m, hm, rfl⟩ := h
  have hread := NumberToken.read_of_magnitude hm hrest
  cases hsign : t.negative with
  | true =>
    rw [hsign] at hread hs
    obtain ⟨rfl, rfl⟩ := List.cons.inj hs
    simp [readLeaf, hread, hvalue, bind, Except.bind, pure, Except.pure]
  | false =>
    obtain ⟨d, m, hd, rfl⟩ := hm.head
    obtain ⟨hn, ht, hf, hq, hminus, -⟩ := digitByte_ne hd
    rw [hsign, List.cons_append] at hread
    rw [hsign] at hs
    obtain ⟨rfl, rfl⟩ := List.cons.inj hs
    simp [readLeaf, hn, ht, hf, hq, hminus, digit?_digitByte hd, hread, hvalue, bind, Except.bind,
      pure, Except.pure]

theorem reads_spelled {depth : Nat} {shape : Shape} {t : NumberToken} {s : Bytes} {x : Float}
    (h : t.Spelled s) (hint : t.int? = none) (hx : t.real [] = .ok x) :
    Reads depth shape s (.number (.real x)) := by
  intro rest hrest
  obtain ⟨b, r, rfl, hb⟩ := h.head
  have hplain : b ≠ 91 ∧ b ≠ 123 ∧ isSpace b = false := by
    rcases hb with rfl | ⟨d, hd, rfl⟩
    · decide
    · obtain ⟨-, -, -, -, -, hlist, hobject, hspace⟩ := digitByte_ne hd
      exact ⟨hlist, hobject, hspace⟩
  rw [List.cons_append,
    readValue_leaf (dropSpace_cons hplain.2.2) hplain.1 hplain.2.1]
  exact readLeaf_of_spelled h hrest
    (NumberToken.value_of_real hint (NumberToken.real_eq_ok_iff.2 hx)) rfl

/-! ## Reading documents -/

theorem Reads.append {depth : Nat} {shape : Shape} {before s : Bytes} {v : Json}
    (h : Reads depth shape s v) (hbefore : Blank before) : Reads depth shape (before ++ s) v := by
  intro rest hrest
  rw [List.append_assoc, readValue_append hbefore]
  exact h rest hrest

/-- A key with its colon in front of a value is a member. -/
theorem WritesKey.member {depth : Nat} {k : String} {q s : Bytes} {v : Json} (hk : WritesKey k q)
    (h : Reads depth .whole s v) : Member depth .whole (q ++ s) (k, v) := by
  obtain ⟨hk, hbetween, hafter⟩ := hk
  have hmember : Member depth .whole _ (k, v) := .mk hk hbetween rfl (h.append hafter)
  rw [List.cons_append, List.append_assoc, List.cons_append, List.append_assoc, List.cons_append]
  exact hmember

theorem Items.append {depth index : Nat} {before t : Bytes} {vs : List Json}
    (h : Items depth .whole index t vs) (hbefore : Blank before) :
    Items depth .whole index (before ++ t) vs := by
  cases h with
  | last hv hafter =>
    rw [← List.append_assoc]
    exact .last (hv.append hbefore) hafter
  | more hv hafter ht =>
    rw [← List.append_assoc]
    exact .more (hv.append hbefore) hafter ht

mutual

/-- A text of a form is read as its value. -/
theorem Writes.reads : ∀ {depth : Nat} {f : Form} {s : Bytes} {v : Json},
    Writes depth f s → f.value? = some v → Reads depth .whole s v
  | _, _, _, _, .null, rfl => reads_null
  | _, _, _, _, .true, rfl => reads_bool true
  | _, _, _, _, .false, rfl => reads_bool false
  | _, _, _, _, .integer h, rfl => reads_integer h
  | _, .real token _, _, _, .real h hint, hv => by
    rw [Form.value?] at hv
    cases hx : token.real [] with
    | error e => rw [hx] at hv; cases hv
    | ok x =>
      rw [hx] at hv
      cases hv
      exact reads_spelled h hint hx
  | _, _, _, _, .string h, rfl => reads_string h
  | _, _, _, _, .emptyArray h, rfl => reads_array_nil h
  | _, _, _, _, .array hs h, hv => by
    rw [Form.value?, Option.map_eq_some_iff] at hv
    obtain ⟨vs, hvs, rfl⟩ := hv
    exact reads_array ((h.items hvs 0).append hs)
  | _, _, _, _, .emptyObject h, rfl => reads_object_nil h
  | _, _, _, _, .object hs h, hv => by
    rw [Form.value?, Option.map_eq_some_iff] at hv
    obtain ⟨ms, hms, rfl⟩ := hv
    exact reads_object hs (h.members hms)

theorem WritesItems.items : ∀ {depth : Nat} {fs : List Form} {t : Bytes} {vs : List Json},
    WritesItems depth fs t → itemValues? fs = some vs → ∀ index, Items depth .whole index t vs
  | _, _, _, _, .last (f := f) h hafter, hvs, index => by
    simp only [itemValues?, Option.bind_eq_some_iff, Option.map_some, Option.some.injEq] at hvs
    obtain ⟨v, hv, rfl⟩ := hvs
    exact .last (h.reads hv) hafter
  | _, _, _, _, .more h hafter hnext ht, hvs, index => by
    simp only [itemValues?, Option.bind_eq_some_iff, Option.map_eq_some_iff] at hvs
    obtain ⟨v, hv, vs, hvs, rfl⟩ := hvs
    exact .more (h.reads hv) hafter (((ht.items hvs (index + 1)).append hnext))

theorem WritesMembers.members : ∀ {depth : Nat} {fs : List (String × Form)} {t : Bytes}
    {ms : List (String × Json)}, WritesMembers depth fs t → memberValues? fs = some ms →
      Members depth .whole t ms
  | _, _, _, _, .last hk h hafter, hms => by
    simp only [memberValues?, Option.bind_eq_some_iff, Option.map_some, Option.some.injEq] at hms
    obtain ⟨v, hv, rfl⟩ := hms
    rw [← List.append_assoc]
    exact .last (hk.member (h.reads hv)) hafter
  | _, _, _, _, .more hk h hafter hnext ht, hms => by
    simp only [memberValues?, Option.bind_eq_some_iff, Option.map_eq_some_iff] at hms
    obtain ⟨v, hv, ms, hms, rfl⟩ := hms
    rw [← List.append_assoc]
    exact .more (hk.member (h.reads hv)) hafter hnext (ht.members hms)

end

/-- **The value of a form is read from each of its texts.** -/
theorem parse_of_document {f : Form} {s : Bytes} {v : Json} (h : Document f s)
    (hv : f.value? = some v) : parse s = .ok v := by
  obtain ⟨before, t, after, hbefore, hafter, hwrites, rfl⟩ := h
  have hread := hwrites.reads hv after (ends_of_blank hafter)
  refine mapError_eq_ok_iff.2 (bind_eq_ok_iff.2 ⟨(v, after), ?_, ?_⟩)
  · rw [maxDepth, readValue_append hbefore, hread]
  · simp only [dropSpace_eq_nil_iff.2 hafter]
    rfl

end SecretMount.Json
