import Mathlib.Data.String.Basic
import SecretMount.Proofs.Spelling

/-!
# The grammar of names

Reading accepts the texts of well-formed names and no others, and gives back the name that was
written.

* `Numeral.extend_of_isDigit`, `Numeral.read_toString` : digits are read as the number that they
  make up, so a number is read from its decimal text;
* `Version.Valid`, `Version.parse_eq_ok_iff` : the versions, each of which has one text;
* `Location.WellFormed`, `Location.isValid_iff` : the ids of locations;
* `VersionName.WellFormed`, `VersionName.parse_eq_ok_iff` : the names, each of which has one text;
* `VersionName.Spells` : the grammar of the texts, with one case for each of its two shapes
  (`VersionName.spells_iff`).
-/

namespace SecretMount

/-! ## Numerals -/

namespace Numeral

theorem le_ofDigitChars (cs : List Char) (value : Nat) : value ≤ Nat.ofDigitChars 10 cs value := by
  induction cs generalizing value with
  | nil => exact Nat.le_refl value
  | cons c cs ih =>
    rw [Nat.ofDigitChars_cons]
    have := ih (10 * value + (c.toNat - '0'.toNat))
    omega

/-- Digits are read as the number that they make up. -/
theorem extend_of_isDigit {bound : Nat} : ∀ {cs : List Char} {value : Nat},
    (∀ c ∈ cs, c.isDigit = true) → Nat.ofDigitChars 10 cs value ≤ bound →
    extend 10 bound value cs = .ok (Nat.ofDigitChars 10 cs value)
  | [], value, _, _ => rfl
  | c :: cs, value, hall, hle => by
    have h0 : '0'.toNat = 48 := rfl
    have hnext : Nat.ofDigitChars 10 (c :: cs) value =
        Nat.ofDigitChars 10 cs (value * 10 + (c.toNat - 48)) := by
      rw [Nat.ofDigitChars_cons, h0, Nat.mul_comm]
    rw [hnext] at hle ⊢
    have hfits : ¬ bound < value * 10 + (c.toNat - 48) := by
      have := le_ofDigitChars cs (value * 10 + (c.toNat - 48))
      omega
    simp only [extend, digitBelow?_of_isDigit (hall c List.mem_cons_self), if_neg hfits]
    exact extend_of_isDigit (fun d hd => hall d (List.mem_cons_of_mem c hd)) hle

theorem le_of_extend {radix bound n : Nat} : ∀ {cs : List Char} {value : Nat}, value ≤ bound →
    extend radix bound value cs = .ok n → n ≤ bound
  | [], value, hvalue, h => by
    cases h
    exact hvalue
  | c :: cs, value, _, h => by
    unfold extend at h
    split at h
    · cases h
    · split at h
      · cases h
      · next hfits => exact le_of_extend (Nat.le_of_not_lt hfits) h

theorem le_of_read {bound n : Nat} {s : String} (h : read bound s = .ok n) : n ≤ bound := by
  unfold read readChars at h
  split at h
  · cases h
  · cases h
  · cases h
  · exact le_of_extend (Nat.zero_le bound) h
  · exact le_of_extend (Nat.zero_le bound) h

theorem isDigit_of_mem_toString {n : Nat} {c : Char} (h : c ∈ (toString n).toList) :
    c.isDigit = true := by
  rw [Nat.toString_eq_ofList_toDigits, String.toList_ofList] at h
  exact Nat.isDigit_of_mem_toDigits (by decide) (by decide) h

theorem head?_toDigits_ne_zero {n : Nat} (h : n ≠ 0) : (Nat.toDigits 10 n).head? ≠ some '0' := by
  induction n using Nat.strongRecOn with
  | ind n ih =>
    by_cases hlt : n < 10
    · rw [Nat.toDigits_of_lt_base hlt, List.head?_cons, ne_eq, Option.some.injEq,
        Nat.digitChar_eq_zero]
      exact h
    · rw [Nat.toDigits_of_base_le (by decide) (by omega),
        List.head?_append_of_ne_nil _ Nat.toDigits_ne_nil]
      exact ih (n / 10) (by omega) (by omega)

/-- The decimal text of a number is read as the number. -/
theorem read_toString {bound n : Nat} (h : n ≤ bound) : read bound (toString n) = .ok n := by
  have hdigits : ∀ c ∈ Nat.toDigits 10 n, c.isDigit = true := fun c hc =>
    Nat.isDigit_of_mem_toDigits (by decide) (by decide) hc
  have hvalue : Nat.ofDigitChars 10 (Nat.toDigits 10 n) 0 = n := Nat.ofDigitChars_ten_toDigits
  rw [read, Nat.toString_eq_ofList_toDigits, String.toList_ofList]
  cases hcs : Nat.toDigits 10 n with
  | nil => exact absurd hcs Nat.toDigits_ne_nil
  | cons c cs =>
    rw [hcs] at hdigits hvalue
    rw [readChars_of_isDigit (hdigits c List.mem_cons_self), extend_of_isDigit hdigits, hvalue]
    rw [hvalue]
    exact h

end Numeral

/-! ## Versions -/

namespace Version

/-- The versions that can be asked for: the newest one, and the positive numbers of 64 bits. -/
def Valid : Version → Prop
  | latest => True
  | number n => 1 ≤ n ∧ n ≤ Numeral.max64

theorem valid_of_parse {s : String} {v : Version} (h : parse s = .ok v) : v.Valid := by
  unfold parse at h
  split at h
  · cases h
    exact True.intro
  · split at h
    · cases h
    · split at h
      · cases h
      · split at h
        · cases h
        · cases h
        · next n hzero hread =>
          cases h
          exact ⟨Nat.one_le_iff_ne_zero.2 hzero, Numeral.le_of_read hread⟩

theorem parse_text {v : Version} (h : v.Valid) : parse v.text = .ok v := by
  cases v with
  | latest => rfl
  | number n =>
    obtain ⟨hpos, hmax⟩ := h
    have hdigits : ∀ c ∈ (toString n).toList, c.isDigit = true :=
      fun c hc => Numeral.isDigit_of_mem_toString hc
    have hne : (toString n).toList ≠ [] := by
      rw [Nat.toString_eq_ofList_toDigits, String.toList_ofList]
      exact Nat.toDigits_ne_nil
    have hzero : (toString n).toList.head? ≠ some '0' := by
      rw [Nat.toString_eq_ofList_toDigits, String.toList_ofList]
      exact Numeral.head?_toDigits_ne_zero (Nat.one_le_iff_ne_zero.1 hpos)
    have hword : toString n ≠ "latest" := by
      intro hlatest
      have hletter := hdigits 'l' (by rw [hlatest]; decide)
      exact absurd hletter (by decide)
    have hall :
        ¬ ((toString n).toList.isEmpty || !(toString n).toList.all Char.isDigit) = true := by
      rw [List.all_eq_true.2 hdigits, List.isEmpty_eq_false_iff.2 hne]
      decide
    unfold parse
    rw [text, if_neg hword, if_neg hall, if_neg (fun h => hzero h.2), Numeral.read_toString hmax]
    split
    · next heq =>
      cases heq
      exact absurd hpos (by decide)
    · next heq => cases heq
    · next heq =>
      cases heq
      rfl

/-- Reading accepts the texts of valid versions and no others. -/
theorem parse_eq_ok_iff {s : String} {v : Version} : parse s = .ok v ↔ v.Valid ∧ v.text = s := by
  constructor
  · exact fun h => ⟨valid_of_parse h, text_of_parse h⟩
  · rintro ⟨hvalid, rfl⟩
    exact parse_text hvalid

/-- The spellings of versions. -/
inductive Spells : String → Version → Prop
  | latest : Spells "latest" .latest
  | number {n : Nat} (hpos : 1 ≤ n) (hmax : n ≤ 18446744073709551615) :
      Spells (toString n) (.number n)

theorem spells_iff {s : String} {v : Version} : Spells s v ↔ v.Valid ∧ v.text = s := by
  constructor
  · intro h
    cases h with
    | latest => exact ⟨True.intro, rfl⟩
    | number hpos hmax => exact ⟨⟨hpos, hmax⟩, rfl⟩
  · rintro ⟨hvalid, rfl⟩
    cases v with
    | latest => exact .latest
    | number n => exact .number hvalid.1 hvalid.2

/-- The texts of versions are words of letters and digits. -/
theorem slash_not_mem_text (v : Version) : '/' ∉ v.text.toList := by
  cases v with
  | latest => decide
  | number n =>
    intro hslash
    have hdigit := Numeral.isDigit_of_mem_toString hslash
    exact absurd hdigit (by decide)

end Version

/-! ## Locations -/

namespace Location

/-- What the id of a location is made of. -/
structure WellFormed (s : String) : Prop where
  length_pos : 1 ≤ s.length
  length_le : s.length ≤ 30
  first : ∀ c, s.toList.head? = some c → 'a' ≤ c ∧ c ≤ 'z'
  chars : ∀ c ∈ s.toList, 'a' ≤ c ∧ c ≤ 'z' ∨ '0' ≤ c ∧ c ≤ '9' ∨ c = '-'
  last : s.toList.getLast? ≠ some '-'

theorem isLetter_iff {c : Char} : isLetter c = true ↔ 'a' ≤ c ∧ c ≤ 'z' := by
  simp [isLetter]

theorem isIdChar_iff {c : Char} :
    isIdChar c = true ↔ 'a' ≤ c ∧ c ≤ 'z' ∨ '0' ≤ c ∧ c ≤ '9' ∨ c = '-' := by
  have hdigit : c.isDigit = true ↔ '0' ≤ c ∧ c ≤ '9' := by
    simp [Char.isDigit, Char.le_def]
  rw [isIdChar, Bool.or_eq_true, Bool.or_eq_true, isLetter_iff, hdigit, beq_iff_eq, or_assoc]

/-- The characters of ids are ASCII. -/
theorem val_le_of_isIdChar {c : Char} (h : isIdChar c = true) : c.val ≤ 127 := by
  rcases isIdChar_iff.1 h with ⟨-, hle⟩ | ⟨-, hle⟩ | rfl
  · exact Nat.le_trans hle (by decide)
  · exact Nat.le_trans hle (by decide)
  · decide

/-- A text of ASCII characters has as many bytes as characters. -/
theorem utf8ByteSize_eq_length {s : String} (h : ∀ c ∈ s.toList, isIdChar c = true) :
    s.utf8ByteSize = s.length := by
  have hlen : ∀ cs : List Char, (∀ c ∈ cs, isIdChar c = true) → String.utf8Len cs = cs.length := by
    intro cs hcs
    induction cs with
    | nil => rfl
    | cons c r ih =>
      have hc := Char.utf8Size_eq_one_iff.2 (val_le_of_isIdChar (hcs c List.mem_cons_self))
      rw [String.utf8Len_cons, ih fun d hd => hcs d (List.mem_cons_of_mem c hd), hc,
        List.length_cons]
  have hsize := hlen s.toList h
  rwa [← String.utf8ByteSize_ofList, String.ofList_toList, String.length_toList] at hsize

/-- What an id of any length is made of. -/
theorem isId_iff {cs : List Char} :
    isId cs = true ↔ cs ≠ [] ∧ (∀ c, cs.head? = some c → isLetter c = true) ∧
      (∀ c ∈ cs, isIdChar c = true) ∧ cs.getLast? ≠ some '-' := by
  cases cs with
  | nil => simp [isId]
  | cons c r =>
    have hlast : isLetter c = true → ((c :: r).getLast? ≠ some '-' ↔ r.getLast? ≠ some '-') := by
      intro hc
      cases r with
      | nil =>
        have hne : c ≠ '-' := by
          rintro rfl
          exact absurd hc (by decide)
        simp [hne]
      | cons d r => rw [List.getLast?_cons_cons]
    simp only [isId, Bool.and_eq_true, List.all_eq_true, bne_iff_ne, List.head?_cons,
      Option.some.injEq, forall_eq', List.forall_mem_cons, ne_eq, reduceCtorEq, not_false_eq_true,
      true_and]
    constructor
    · rintro ⟨⟨hc, hr⟩, hne⟩
      have hid : isIdChar c = true := isIdChar_iff.2 (Or.inl (isLetter_iff.1 hc))
      exact ⟨hc, ⟨hid, hr⟩, (hlast hc).2 hne⟩
    · rintro ⟨hc, ⟨-, hr⟩, hne⟩
      exact ⟨⟨hc, hr⟩, (hlast hc).1 hne⟩

theorem isValid_iff {s : String} : isValid s = true ↔ WellFormed s := by
  rw [isValid, Bool.and_eq_true, decide_eq_true_eq, isId_iff]
  constructor
  · rintro ⟨hsize, hne, hfirst, hchars, hlast⟩
    rw [utf8ByteSize_eq_length hchars] at hsize
    refine ⟨?_, hsize, fun c hc => isLetter_iff.1 (hfirst c hc),
      fun c hc => isIdChar_iff.1 (hchars c hc), hlast⟩
    rw [← String.length_toList]
    exact List.length_pos_iff.2 hne
  · rintro ⟨hpos, hle, hfirst, hchars, hlast⟩
    have hids : ∀ c ∈ s.toList, isIdChar c = true := fun c hc => isIdChar_iff.2 (hchars c hc)
    refine ⟨?_, ?_, fun c hc => isLetter_iff.2 (hfirst c hc), hids, hlast⟩
    · rw [utf8ByteSize_eq_length hids]
      exact hle
    · rw [← String.length_toList] at hpos
      exact List.length_pos_iff.1 hpos

theorem WellFormed.slash_not_mem {s : String} (h : WellFormed s) : '/' ∉ s.toList := by
  intro hslash
  rcases h.chars '/' hslash with hletter | hdigit | hhyphen
  · exact absurd hletter (by decide)
  · exact absurd hdigit (by decide)
  · exact absurd hhyphen (by decide)

end Location

/-! ## Pieces -/

namespace Text

theorem split_joinWith {c : Char} {pieces : List String} (hne : pieces ≠ [])
    (h : ∀ s ∈ pieces, c ∉ s.toList) : split c (joinWith c pieces) = pieces := by
  have hpieces : ∀ cs ∈ pieces.map String.toList, c ∉ cs := by
    intro cs hcs
    obtain ⟨s, hs, rfl⟩ := List.mem_map.1 hcs
    exact h s hs
  rw [split, joinWith, String.toList_ofList,
    List.splitOn_intercalate c hpieces (by simpa using hne)]
  simp [Function.comp_def]

/-- A text without `c` is its only piece. -/
theorem split_of_not_mem {c : Char} {s : String} (h : c ∉ s.toList) : split c s = [s] := by
  have hsplit := split_joinWith (List.cons_ne_nil s []) (List.forall_mem_singleton.2 h)
  rwa [joinWith_singleton] at hsplit

theorem not_mem_of_mem_splitOn {c : Char} : ∀ {cs piece : List Char},
    piece ∈ cs.splitOn c → c ∉ piece
  | [], piece, h => by
    rw [List.splitOn_nil, List.mem_singleton] at h
    simp [h]
  | x :: cs, piece, h => by
    rw [List.splitOn_cons_eq_if_modifyHead] at h
    split at h
    · rcases List.mem_cons.1 h with rfl | h
      · simp
      · exact not_mem_of_mem_splitOn h
    · next hx =>
      obtain ⟨first, others, hsplit⟩ := List.exists_cons_of_ne_nil (List.splitOn_ne_nil c cs)
      have ih : ∀ piece ∈ first :: others, c ∉ piece := fun piece hpiece =>
        not_mem_of_mem_splitOn (hsplit ▸ hpiece)
      rw [hsplit, List.modifyHead_cons] at h
      rcases List.mem_cons.1 h with rfl | h
      · rw [List.mem_cons, not_or]
        exact ⟨fun hc => hx (by simp [hc]), ih first List.mem_cons_self⟩
      · exact ih piece (List.mem_cons_of_mem first h)

theorem not_mem_of_mem_split {c : Char} {s piece : String} (h : piece ∈ split c s) :
    c ∉ piece.toList := by
  obtain ⟨cs, hcs, rfl⟩ := List.mem_map.1 h
  rw [String.toList_ofList]
  exact not_mem_of_mem_splitOn hcs

end Text

/-! ## Names -/

/-- A text that can stand between two slashes. -/
structure IsSegment (s : String) : Prop where
  nonempty : s ≠ ""
  slash_free : '/' ∉ s.toList

namespace VersionName

/-- What a name is made of. -/
structure WellFormed (n : VersionName) : Prop where
  project : IsSegment n.project
  location : ∀ l, n.location = some l → Location.WellFormed l
  secret : IsSegment n.secret
  version : n.version.Valid

theorem WellFormed.withVersion {n : VersionName} (h : n.WellFormed) {v : Version} (hv : v.Valid) :
    (n.withVersion v).WellFormed := ⟨h.project, h.location, h.secret, hv⟩

theorem wellFormed_of_parseLocation {l : List String} {location : Option String}
    (h : parseLocation l = .ok location) : ∀ id, location = some id → Location.WellFormed id := by
  rintro id rfl
  unfold parseLocation at h
  split at h
  · cases h
  · split at h
    · cases h
    · simp only at h
      split at h
      · next hid =>
        cases h
        exact Location.isValid_iff.1 hid.2
      · cases h

/-- What reading has checked, slashes apart. -/
theorem valid_of_ofSegments {l : List String} {n : VersionName} (h : ofSegments l = .ok n) :
    n.project ≠ "" ∧ n.secret ≠ "" ∧ n.version.Valid ∧
      ∀ id, n.location = some id → Location.WellFormed id := by
  unfold ofSegments at h
  split at h
  · cases h
  · split at h
    · split at h
      · cases h
      · split at h
        · cases h
        · split at h
          · cases h
          · next hproject =>
            split at h
            · cases h
            · next hsecret =>
              obtain ⟨version, hversion, h⟩ := bind_eq_ok_iff.1 h
              obtain ⟨location, hlocation, h⟩ := bind_eq_ok_iff.1 h
              cases h
              exact ⟨hproject, hsecret, Version.valid_of_parse (mapError_eq_ok_iff.1 hversion),
                wellFormed_of_parseLocation hlocation⟩
    · cases h

theorem wellFormed_of_parse {s : String} {n : VersionName} (h : parse s = .ok n) :
    n.WellFormed := by
  rw [parse, mapError_eq_ok_iff] at h
  obtain ⟨hproject, hsecret, hversion, hlocation⟩ := valid_of_ofSegments h
  -- each piece of a text is free of slashes, and project and secret are pieces
  have hfree : ∀ piece ∈ n.segments, '/' ∉ piece.toList := by
    rw [← segments_of_ofSegments h]
    exact fun piece hpiece => Text.not_mem_of_mem_split hpiece
  refine ⟨⟨hproject, hfree _ ?_⟩, hlocation, ⟨hsecret, hfree _ ?_⟩, hversion⟩
  · unfold segments parentSegments
    cases n.location <;> simp
  · simp [segments]

theorem slash_not_mem_segments {n : VersionName} (h : n.WellFormed) :
    ∀ piece ∈ n.segments, '/' ∉ piece.toList := by
  have hversion := Version.slash_not_mem_text n.version
  obtain ⟨⟨-, hproject⟩, hlocation, ⟨-, hsecret⟩, -⟩ := h
  unfold segments parentSegments
  cases hl : n.location with
  | none =>
    simp only [List.cons_append, List.nil_append, List.forall_mem_cons]
    exact ⟨by decide, hproject, by decide, hsecret, by decide, hversion, by simp⟩
  | some l =>
    have hid := (hlocation l hl).slash_not_mem
    simp only [List.cons_append, List.nil_append, List.forall_mem_cons]
    exact ⟨by decide, hproject, by decide, hid, by decide, hsecret, by decide, hversion, by simp⟩

theorem parseLocation_some {l : String} (h : Location.WellFormed l) :
    parseLocation ["locations", l] = .ok (some l) := by
  have hjoin := Text.joinWith_singleton '/' l
  simp [parseLocation, hjoin, Location.isValid_iff.2 h]

/-- The segments of a well-formed name are read as the name. -/
theorem ofSegments_segments {n : VersionName} (h : n.WellFormed) :
    ofSegments n.segments = .ok n := by
  obtain ⟨project, location, secret, version⟩ := n
  obtain ⟨⟨hproject, -⟩, hlocation, ⟨hsecret, -⟩, hversion⟩ := h
  simp only at hproject hlocation hsecret hversion
  have htext := Version.parse_text hversion
  cases location with
  | none =>
    simp [ofSegments, segments, parentSegments, hproject, hsecret, htext, parseLocation, bind,
      Except.bind, pure, Except.pure]
  | some l =>
    simp [ofSegments, segments, parentSegments, hproject, hsecret, htext,
      parseLocation_some (hlocation l rfl), bind, Except.bind, pure, Except.pure]

/-- Reading accepts the texts of well-formed names and no others. -/
theorem parse_eq_ok_iff {s : String} {n : VersionName} :
    parse s = .ok n ↔ n.WellFormed ∧ n.text = s := by
  constructor
  · exact fun h => ⟨wellFormed_of_parse h, text_of_parse h⟩
  · rintro ⟨h, rfl⟩
    have hne : n.segments ≠ [] := by simp [segments]
    rw [parse, mapError_eq_ok_iff, text_eq_joinWith,
      Text.split_joinWith hne (slash_not_mem_segments h)]
    exact ofSegments_segments h

/-! ## The grammar -/

/-- The spellings of names, of which there are two shapes. -/
inductive Spells : String → VersionName → Prop
  | general {project secret token : String} {version : Version} (hproject : IsSegment project)
      (hsecret : IsSegment secret) (hversion : Version.Spells token version) :
      Spells ("projects/" ++ project ++ "/secrets/" ++ secret ++ "/versions/" ++ token)
        ⟨project, none, secret, version⟩
  | regional {project location secret token : String} {version : Version}
      (hproject : IsSegment project) (hlocation : Location.WellFormed location)
      (hsecret : IsSegment secret) (hversion : Version.Spells token version) :
      Spells ("projects/" ++ project ++ "/locations/" ++ location ++ "/secrets/" ++ secret ++
        "/versions/" ++ token) ⟨project, some location, secret, version⟩

theorem text_general (project secret : String) (version : Version) :
    text ⟨project, none, secret, version⟩ =
      "projects/" ++ project ++ "/secrets/" ++ secret ++ "/versions/" ++ version.text := by
  apply String.toList_inj.1
  simp [text, secretPath, parentSegments, Text.joinWith, List.intercalate]

theorem text_regional (project location secret : String) (version : Version) :
    text ⟨project, some location, secret, version⟩ =
      "projects/" ++ project ++ "/locations/" ++ location ++ "/secrets/" ++ secret ++
        "/versions/" ++ version.text := by
  apply String.toList_inj.1
  simp [text, secretPath, parentSegments, Text.joinWith, List.intercalate]

/-- The grammar is that of the texts of well-formed names. -/
theorem spells_iff {s : String} {n : VersionName} : Spells s n ↔ n.WellFormed ∧ n.text = s := by
  constructor
  · intro h
    cases h with
    | general hproject hsecret hversion =>
      obtain ⟨hvalid, rfl⟩ := Version.spells_iff.1 hversion
      exact ⟨⟨hproject, (fun l hl => nomatch hl), hsecret, hvalid⟩, text_general _ _ _⟩
    | regional hproject hlocation hsecret hversion =>
      obtain ⟨hvalid, rfl⟩ := Version.spells_iff.1 hversion
      refine ⟨⟨hproject, fun l hl => ?_, hsecret, hvalid⟩, text_regional _ _ _ _⟩
      cases hl
      exact hlocation
  · rintro ⟨⟨hproject, hlocation, hsecret, hvalid⟩, rfl⟩
    obtain ⟨project, location, secret, version⟩ := n
    have hversion : Version.Spells version.text version := Version.spells_iff.2 ⟨hvalid, rfl⟩
    cases location with
    | none =>
      rw [text_general]
      exact .general hproject hsecret hversion
    | some l =>
      rw [text_regional]
      exact .regional hproject (hlocation l rfl) hsecret hversion

/-- **Reading accepts exactly the grammar and is inverse to writing.** A text is read as a name when
it spells this name, and then it is the text of the name. A name that was read is read again from
its text, in this and in any other version that can be asked for. -/
theorem parse_inverts_text :
    (∀ s n, parse s = .ok n ↔ Spells s n) ∧
    (∀ s n, Spells s n → n.text = s) ∧
    ∀ s n v, parse s = .ok n → v.Valid →
      parse (n.withVersion v).text = .ok (n.withVersion v) := by
  refine ⟨fun s n => ?_, fun s n h => (spells_iff.1 h).2, fun s n v h hv => ?_⟩
  · rw [parse_eq_ok_iff, spells_iff]
  · exact parse_eq_ok_iff.2 ⟨(wellFormed_of_parse h).withVersion hv, rfl⟩

/-- The words of the grammar may be parts of a name. -/
theorem parse_inverts_text_keywords :
    let s := "projects/locations/locations/secrets/secrets/versions/versions/latest"
    let n : VersionName := ⟨"locations", some "secrets", "versions", .latest⟩
    let newest : Version := .number 18446744073709551615
    parse s = .ok n ∧ Spells s n ∧ n.text = s ∧ newest.Valid ∧
      parse (n.withVersion newest).text = .ok (n.withVersion newest) := by
  intro s n newest
  have hs : parse s = .ok n := by decide
  have hvalid : newest.Valid := ⟨by decide, by decide⟩
  obtain ⟨hgrammar, htext, hagain⟩ := parse_inverts_text
  have hspells : Spells s n := (hgrammar s n).1 hs
  exact ⟨hs, hspells, htext s n hspells, hvalid, hagain s n newest hs hvalid⟩

end VersionName

end SecretMount
