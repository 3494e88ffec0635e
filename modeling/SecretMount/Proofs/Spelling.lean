import SecretMount.VersionName

/-!
# The spelling of names

A text that is read as a name is the text of that name, so what is sent under a name is what was
asked for.

* `SecretMount.bind_eq_ok_iff`, `SecretMount.bind_eq_error_iff` : steps that succeed together
  succeed one by one, and steps that fail together fail at one of them;
* `Numeral.toDigits_extend`, `Numeral.toString_of_read` : a number that is read digit by digit has
  these digits;
* `Version.text_of_parse` : the same for versions;
* `VersionName.segments` : the pieces of the text of a name (`VersionName.text_eq_joinWith`);
* `VersionName.segments_of_ofSegments`, `VersionName.text_of_parse` : the same for names.
-/

namespace SecretMount

/-! ## Results -/

section Results

variable {α β ε ε' : Type}

@[simp] theorem mapError_ok (f : ε → ε') (a : α) : (Except.ok a).mapError f = .ok a := rfl

@[simp] theorem mapError_error (f : ε → ε') (e : ε) :
    (Except.error e : Except ε α).mapError f = .error (f e) := rfl

theorem mapError_eq_ok_iff {x : Except ε α} {f : ε → ε'} {a : α} :
    x.mapError f = .ok a ↔ x = .ok a := by
  cases x with
  | error e => simp
  | ok b => simp

theorem mapError_eq_error_iff {x : Except ε α} {f : ε → ε'} {e' : ε'} :
    x.mapError f = .error e' ↔ ∃ e, x = .error e ∧ f e = e' := by
  cases x with
  | error e => simp
  | ok a => simp

theorem map_eq_ok_iff {x : Except ε α} {f : α → β} {b : β} :
    x.map f = .ok b ↔ ∃ a, x = .ok a ∧ f a = b := by
  cases x with
  | error e => simp [Except.map]
  | ok a => simp [Except.map]

theorem toOption_eq_some_iff {x : Except ε α} {a : α} : x.toOption = some a ↔ x = .ok a := by
  cases x with
  | error e => simp [Except.toOption]
  | ok b => simp [Except.toOption]

/-- Both steps succeed when the steps together do. -/
theorem bind_eq_ok_iff {x : Except ε α} {f : α → Except ε β} {b : β} :
    x >>= f = .ok b ↔ ∃ a, x = .ok a ∧ f a = .ok b := by
  cases x with
  | error e => simp [bind, Except.bind]
  | ok a => simp [bind, Except.bind]

/-- One of the steps fails when the steps together do. -/
theorem bind_eq_error_iff {x : Except ε α} {f : α → Except ε β} {e : ε} :
    x >>= f = .error e ↔ x = .error e ∨ ∃ a, x = .ok a ∧ f a = .error e := by
  cases x with
  | error e => simp [bind, Except.bind]
  | ok a => simp [bind, Except.bind]

end Results

/-! ## Numerals -/

namespace Numeral

theorem digitChar_sub {c : Char} (h : c.isDigit = true) : Nat.digitChar (c.toNat - 48) = c := by
  obtain ⟨hlo, hhi⟩ := Char.isDigit_iff_toNat.1 h
  have h0 : '0'.toNat = 48 := rfl
  have h9 : '9'.toNat = 57 := rfl
  apply Char.toNat_inj.1
  rw [Nat.toNat_digitChar_of_lt_ten (by omega)]
  omega

theorem digitBelow?_of_isDigit {c : Char} (h : c.isDigit = true) :
    digitBelow? 10 c = some (c.toNat - 48) := by
  obtain ⟨hlo, hhi⟩ := Char.isDigit_iff_toNat.1 h
  have h9 : '9'.toNat = 57 := rfl
  have hlt : c.toNat - 48 < 10 := by omega
  simp [digitBelow?, digit?, h, hlt]

theorem extend_cons_of_isDigit {bound value n : Nat} {c : Char} {cs : List Char}
    (hc : c.isDigit = true) (h : extend 10 bound value (c :: cs) = .ok n) :
    extend 10 bound (value * 10 + (c.toNat - 48)) cs = .ok n := by
  simp only [extend, digitBelow?_of_isDigit hc] at h
  split at h
  · cases h
  · exact h

/-- A digit stands behind those of a positive number. -/
theorem toDigits_concat {n d : Nat} (hn : 0 < n) (hd : d < 10) :
    Nat.toDigits 10 (n * 10 + d) = Nat.toDigits 10 n ++ [d.digitChar] := by
  rw [Nat.mul_comm, ← Nat.toDigits_append_toDigits (by decide) hn hd, Nat.toDigits_of_lt_base hd]

/-- Reading on from a positive number puts the digits behind those of the number. -/
theorem toDigits_extend {bound : Nat} : ∀ {cs : List Char} {value n : Nat}, 0 < value →
    cs.all Char.isDigit = true → extend 10 bound value cs = .ok n →
    Nat.toDigits 10 n = Nat.toDigits 10 value ++ cs
  | [], value, n, _, _, h => by
    cases h
    rw [List.append_nil]
  | c :: cs, value, n, hpos, hall, h => by
    simp only [List.all_cons, Bool.and_eq_true] at hall
    obtain ⟨hc, hcs⟩ := hall
    obtain ⟨_, hhi⟩ := Char.isDigit_iff_toNat.1 hc
    have h9 : '9'.toNat = 57 := rfl
    have hlt : c.toNat - 48 < 10 := by omega
    have hnext := toDigits_extend (by omega) hcs (extend_cons_of_isDigit hc h)
    rw [hnext, toDigits_concat hpos hlt, digitChar_sub hc, List.append_assoc,
      List.singleton_append]

/-- Digits that do not start with a zero are those of the number that they are read as. -/
theorem toDigits_of_extend {bound n : Nat} {c : Char} {cs : List Char}
    (hall : (c :: cs).all Char.isDigit = true) (hc : c ≠ '0')
    (h : extend 10 bound 0 (c :: cs) = .ok n) : Nat.toDigits 10 n = c :: cs := by
  simp only [List.all_cons, Bool.and_eq_true] at hall
  obtain ⟨hdigit, hcs⟩ := hall
  obtain ⟨hlo, hhi⟩ := Char.isDigit_iff_toNat.1 hdigit
  have h0 : '0'.toNat = 48 := rfl
  have h9 : '9'.toNat = 57 := rfl
  have hne : c.toNat ≠ 48 := fun he => hc (Char.toNat_inj.1 he)
  have hlt : c.toNat - 48 < 10 := by omega
  have hnext := extend_cons_of_isDigit hdigit h
  rw [Nat.zero_mul, Nat.zero_add] at hnext
  rw [toDigits_extend (by omega) hcs hnext, Nat.toDigits_of_lt_base hlt, digitChar_sub hdigit,
    List.singleton_append]

theorem readChars_of_isDigit {bound : Nat} {c : Char} {cs : List Char} (hc : c.isDigit = true) :
    readChars 10 bound (c :: cs) = extend 10 bound 0 (c :: cs) := by
  have hplus : c ≠ '+' := by rintro rfl; exact absurd hc (by decide)
  have hminus : c ≠ '-' := by rintro rfl; exact absurd hc (by decide)
  unfold readChars
  split <;> simp_all

/-- A positive number without leading zeros is written as it is read. -/
theorem toString_of_read {bound n : Nat} {s : String} (hall : s.toList.all Char.isDigit = true)
    (hzero : ¬ (1 < s.toList.length ∧ s.toList.head? = some '0')) (h : read bound s = .ok n)
    (hpos : n ≠ 0) : toString n = s := by
  have hdigits : Nat.toDigits 10 n = s.toList := by
    unfold read at h
    generalize s.toList = cs at *
    cases cs with
    | nil => cases h
    | cons c cs =>
      have hc : c.isDigit = true := List.all_eq_true.1 hall c List.mem_cons_self
      rw [readChars_of_isDigit hc] at h
      by_cases hc0 : c = '0'
      · -- a lone zero is read as zero
        subst hc0
        cases cs with
        | nil =>
          cases h
          exact absurd rfl hpos
        | cons d ds => simp at hzero
      · exact toDigits_of_extend hall hc0 h
  rw [Nat.toString_eq_ofList_toDigits, hdigits, String.ofList_toList]

end Numeral

/-! ## Versions -/

namespace Version

theorem text_of_parse {s : String} {v : Version} (h : parse s = .ok v) : v.text = s := by
  unfold parse at h
  split at h
  · next hs =>
    cases h
    exact hs.symm
  · split at h
    · cases h
    · next hdigits =>
      split at h
      · cases h
      · next hzero =>
        split at h
        · cases h
        · cases h
        · next n hpos hread =>
          cases h
          simp only [Bool.or_eq_true, Bool.not_eq_true', not_or, Bool.not_eq_true,
            Bool.not_eq_false] at hdigits
          exact Numeral.toString_of_read hdigits.2 hzero hread hpos

end Version

/-! ## Pieces -/

namespace Text

theorem joinWith_cons_cons (c : Char) (x y : String) (l : List String) :
    joinWith c (x :: y :: l) = x ++ (String.ofList [c] ++ joinWith c (y :: l)) := by
  apply String.toList_inj.1
  simp [joinWith, List.intercalate]

theorem joinWith_singleton (c : Char) (x : String) : joinWith c [x] = x := by
  rw [joinWith, List.map_singleton, List.intercalate_singleton, String.ofList_toList]

theorem joinWith_append (c : Char) {m : List String} (hm : m ≠ []) : ∀ {l : List String}, l ≠ [] →
    joinWith c (l ++ m) = joinWith c l ++ (String.ofList [c] ++ joinWith c m)
  | [x], _ => by
    obtain ⟨y, m, rfl⟩ := List.exists_cons_of_ne_nil hm
    rw [List.singleton_append, joinWith_cons_cons, joinWith_singleton]
  | x :: y :: l, _ => by
    have ih := joinWith_append c hm (l := y :: l) (by simp)
    rw [List.cons_append] at ih
    rw [List.cons_append, List.cons_append, joinWith_cons_cons, ih, joinWith_cons_cons]
    simp only [String.append_assoc]

end Text

/-! ## Names -/

namespace VersionName

/-- The pieces of the text of a name. -/
def segments (n : VersionName) : List String :=
  n.parentSegments ++ ["secrets", n.secret, "versions", n.version.text]

theorem text_eq_joinWith (n : VersionName) : n.text = Text.joinWith '/' n.segments := by
  have hsplit : n.segments =
      n.parentSegments ++ ["secrets", n.secret] ++ ["versions", n.version.text] := by
    simp [segments]
  rw [hsplit, Text.joinWith_append '/' (by simp) (by simp), Text.joinWith_cons_cons,
    Text.joinWith_singleton, text, secretPath, String.append_assoc]
  rfl

theorem eq_of_parseLocation {l : List String} {location : Option String}
    (h : parseLocation l = .ok location) :
    l = [] ∧ location = none ∨ ∃ id, l = ["locations", id] ∧ location = some id := by
  unfold parseLocation at h
  split at h
  · cases h
    exact Or.inl ⟨rfl, rfl⟩
  · next first ids =>
    split at h
    · cases h
    · next hfirst =>
      simp only at h
      split at h
      · next hids =>
        cases h
        obtain ⟨id, rfl⟩ := List.length_eq_one_iff.1 hids.1
        refine Or.inr ⟨id, ?_, ?_⟩
        · rw [Classical.not_not.1 hfirst]
        · simp [Text.joinWith, List.intercalate]
      · cases h

/-- A list with six elements or more, cut behind the second and in front of the fourth to last. -/
theorem eq_append_of_drop {α : Type} {x y : α} {rest tail : List α}
    (hlen : 6 ≤ (x :: y :: rest).length)
    (h : (x :: y :: rest).drop ((x :: y :: rest).length - 4) = tail) :
    x :: y :: rest = x :: y :: (rest.take ((x :: y :: rest).length - 6) ++ tail) := by
  simp only [List.length_cons] at hlen h ⊢
  have hdrop : rest.length + 1 + 1 - 4 = rest.length + 1 + 1 - 6 + 2 := by omega
  rw [hdrop, List.drop_succ_cons, List.drop_succ_cons] at h
  rw [← h, List.take_append_drop]

/-- The two pieces of a name that are read by themselves. -/
theorem eq_segments_of_parse {project secret token : String} {middle : List String}
    {n : VersionName}
    (h : (do
      let version ← (Version.parse token).mapError (Flaw.badVersion token)
      let location ← parseLocation middle
      return { project, location, secret, version }) = Except.ok n) :
    "projects" :: project :: (middle ++ ["secrets", secret, "versions", token]) = n.segments := by
  obtain ⟨version, hversion, h⟩ := bind_eq_ok_iff.1 h
  obtain ⟨location, hlocation, h⟩ := bind_eq_ok_iff.1 h
  rw [mapError_eq_ok_iff] at hversion
  cases h
  rcases eq_of_parseLocation hlocation with ⟨rfl, rfl⟩ | ⟨id, rfl, rfl⟩
  · simp [segments, parentSegments, Version.text_of_parse hversion]
  · simp [segments, parentSegments, Version.text_of_parse hversion]

theorem segments_of_ofSegments {l : List String} {n : VersionName} (h : ofSegments l = .ok n) :
    l = n.segments := by
  unfold ofSegments at h
  split at h
  · cases h
  · next hlen =>
    split at h
    · next first project rest secrets secret versions token htail =>
      have hl := eq_append_of_drop (by omega) htail
      generalize rest.take ((first :: project :: rest).length - 6) = middle at hl h
      split at h
      · cases h
      · next hfirst =>
        split at h
        · cases h
        · next hwords =>
          split at h
          · cases h
          · split at h
            · cases h
            · simp only [ne_eq, not_or, Classical.not_not] at hfirst hwords
              rw [hl, hfirst, hwords.1, hwords.2]
              exact eq_segments_of_parse h
    · cases h

/-- A text that is read as a name is the text of this name. -/
theorem text_of_parse {s : String} {n : VersionName} (h : parse s = .ok n) : n.text = s := by
  unfold parse at h
  cases hsegments : ofSegments (Text.split '/' s) with
  | error flaw => rw [hsegments] at h; cases h
  | ok m =>
    rw [hsegments] at h
    cases h
    rw [text_eq_joinWith, ← segments_of_ofSegments hsegments, Text.joinWith_split]

end VersionName

end SecretMount
