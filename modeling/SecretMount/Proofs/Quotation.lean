import SecretMount.Json.Quoted
import SecretMount.Proofs.Spelling
import SecretMount.Proofs.Utf8

/-!
# Strings in JSON texts

* `Json.Hex`, `Json.SpelledChar`, `Json.Spelled` : the ways in which a character, and a string, may
  be written between quotes: each character as it is or as one of its escapes;
* `Json.readString_of_spelled` : whichever way is taken, the string is read;
* `Json.exists_spelled_quote` : strings are written in one of these ways.
-/

namespace SecretMount

namespace Text

@[simp] theorem encode_append (s t : String) : encode (s ++ t) = encode s ++ encode t := by
  rw [encode, String.toList_append, List.flatMap_append, encode, encode]

@[simp] theorem encode_ofList (cs : List Char) :
    encode (String.ofList cs) = cs.flatMap String.utf8EncodeChar := by
  rw [encode, String.toList_ofList]

theorem utf8EncodeChar_of_ascii {c : Char} (h : c.toNat < 128) :
    String.utf8EncodeChar c = [UInt8.ofNat c.toNat] := by
  have hone : c.val.toNat ≤ 127 := Nat.le_of_lt_succ h
  unfold String.utf8EncodeChar
  simp only [hone, if_true]
  rfl

/-- A character beyond ASCII has no bytes of ASCII characters. -/
theorem le_of_mem_utf8EncodeChar {c : Char} {b : UInt8} (h : 128 ≤ c.toNat)
    (hb : b ∈ String.utf8EncodeChar c) : 128 ≤ b.toNat := by
  have hone : ¬ c.val.toNat ≤ 127 := Nat.not_le.2 h
  have hbyte : ∃ n, b = UInt8.ofNat n ∧ 128 ≤ n ∧ n < 256 := by
    unfold String.utf8EncodeChar at hb
    simp only [hone, if_false] at hb
    split at hb
    · simp only [List.mem_cons, List.not_mem_nil, or_false] at hb
      rcases hb with rfl | rfl <;> exact ⟨_, rfl, by omega, by omega⟩
    · split at hb
      · simp only [List.mem_cons, List.not_mem_nil, or_false] at hb
        rcases hb with rfl | rfl | rfl <;> exact ⟨_, rfl, by omega, by omega⟩
      · simp only [List.mem_cons, List.not_mem_nil, or_false] at hb
        rcases hb with rfl | rfl | rfl | rfl <;> exact ⟨_, rfl, by omega, by omega⟩
  obtain ⟨n, rfl, hlow, hhigh⟩ := hbyte
  rw [toNat_byte hhigh]
  exact hlow

end Text

namespace Json

/-! ## Spellings -/

/-- `s` are four hexadecimal digits of `n`. -/
inductive Hex : Nat → Bytes → Prop
  | digits {a b c d : UInt8} {w x y z : Nat} (ha : hexDigit? a = some w)
      (hb : hexDigit? b = some x) (hc : hexDigit? c = some y) (hd : hexDigit? d = some z) :
      Hex (((w * 16 + x) * 16 + y) * 16 + z) [a, b, c, d]

/-- The ways to write a character between quotes. -/
inductive SpelledChar : Char → Bytes → Prop
  | plain {c : Char} (hquote : c ≠ '"') (hbackslash : c ≠ '\\') (hcontrol : 32 ≤ c.toNat) :
      SpelledChar c (String.utf8EncodeChar c)
  | letter {c : Char} {b : UInt8} (h : escaped? b = some c) : SpelledChar c [92, b]
  | hex {c : Char} {s : Bytes} (h : Hex c.toNat s) : SpelledChar c (92 :: 117 :: s)
  /-- A character beyond U+FFFF as a pair of surrogates. -/
  | pair {high low : Nat} {s t : Bytes} (hhigh : isLeading high = true)
      (hlow : isTrailing low = true) (hs : Hex high s) (ht : Hex low t) :
      SpelledChar (Char.ofNat ((high - 0xD800) * 1024 + (low - 0xDC00) + 0x10000))
        (92 :: 117 :: (s ++ 92 :: 117 :: t))

/-- The ways to write characters between quotes. -/
inductive Spelled : List Char → Bytes → Prop
  | nil : Spelled [] []
  | cons {c : Char} {cs : List Char} {s t : Bytes} (hc : SpelledChar c s) (hcs : Spelled cs t) :
      Spelled (c :: cs) (s ++ t)

/-! ## Reading -/

theorem readHex_of_hex {n : Nat} {s : Bytes} (h : Hex n s) (r : Bytes) :
    readHex (s ++ r) = .ok (n, r) := by
  obtain ⟨ha, hb, hc, hd⟩ := h
  simp only [List.cons_append, List.nil_append, readHex, ha, hb, hc, hd]

/-- No character is half of a pair. -/
theorem not_surrogate (c : Char) : isTrailing c.toNat = false ∧ isLeading c.toNat = false := by
  have hvalid : c.toNat < 0xD800 ∨ 0xDFFF < c.toNat ∧ c.toNat < 0x110000 := c.valid
  unfold isTrailing isLeading
  simp only [Bool.and_eq_false_iff, decide_eq_false_iff_not]
  omega

theorem readUnicode_of_hex {c : Char} {s : Bytes} (h : Hex c.toNat s) (r : Bytes) :
    readUnicode (s ++ r) = .ok (c, r) := by
  obtain ⟨htrailing, hleading⟩ := not_surrogate c
  unfold readUnicode
  rw [readHex_of_hex h]
  simp only [bind, Except.bind, htrailing, hleading, Char.ofNat_toNat]
  rfl

theorem readUnicode_of_pair {high low : Nat} {s t : Bytes} (hhigh : isLeading high = true)
    (hlow : isTrailing low = true) (hs : Hex high s) (ht : Hex low t) (r : Bytes) :
    readUnicode (s ++ 92 :: 117 :: (t ++ r)) =
      .ok (Char.ofNat ((high - 0xD800) * 1024 + (low - 0xDC00) + 0x10000), r) := by
  have hfirst : isTrailing high = false := by
    unfold isLeading at hhigh
    unfold isTrailing
    simp only [Bool.and_eq_true, decide_eq_true_eq] at hhigh
    simp only [Bool.and_eq_false_iff, decide_eq_false_iff_not]
    omega
  unfold readUnicode readTrailing
  rw [readHex_of_hex hs]
  simp only [bind, Except.bind, hfirst, hhigh, readHex_of_hex ht, hlow]
  rfl

/-- What stands before the closing quote and needs no escape. -/
theorem readStringBytes_append {bs : Bytes} (h : ∀ b ∈ bs, b ≠ 34 ∧ b ≠ 92 ∧ 32 ≤ b.toNat)
    (fuel : Nat) (before r : Bytes) : readStringBytes (fuel + bs.length) before (bs ++ r) =
      readStringBytes fuel (bs.reverse ++ before) r := by
  induction bs generalizing before with
  | nil => rfl
  | cons b bs ih =>
    obtain ⟨⟨hquote, hbackslash, hcontrol⟩, hbs⟩ := List.forall_mem_cons.1 h
    have hlt : ¬ b < 32 := by
      rw [UInt8.lt_iff_toNat_lt]
      exact Nat.not_lt.2 hcontrol
    rw [List.length_cons, ← Nat.add_assoc, List.cons_append, readStringBytes, if_neg hquote,
      if_neg hbackslash, if_neg hlt, ih hbs, List.reverse_cons, List.append_assoc,
      List.singleton_append]

theorem plain_bytes {c : Char} (hquote : c ≠ '"') (hbackslash : c ≠ '\\')
    (hcontrol : 32 ≤ c.toNat) :
    ∀ b ∈ String.utf8EncodeChar c, b ≠ 34 ∧ b ≠ 92 ∧ 32 ≤ b.toNat := by
  intro b hb
  by_cases hascii : c.toNat < 128
  · rw [Text.utf8EncodeChar_of_ascii hascii, List.mem_singleton] at hb
    have hbyte : b.toNat = c.toNat := by rw [hb, Text.toNat_byte (by omega)]
    refine ⟨?_, ?_, by omega⟩
    · rintro rfl
      exact hquote (Char.toNat_inj.1 hbyte.symm)
    · rintro rfl
      exact hbackslash (Char.toNat_inj.1 hbyte.symm)
  · have hle := Text.le_of_mem_utf8EncodeChar (Nat.not_lt.1 hascii) hb
    refine ⟨?_, ?_, by omega⟩
    · rintro rfl
      exact absurd hle (by decide)
    · rintro rfl
      exact absurd hle (by decide)

/-- An escape, whatever it is, takes one step. -/
theorem readStringBytes_escape {c : Char} {s r : Bytes} (h : readEscape s = .ok (c, r))
    (fuel : Nat) (before : Bytes) : readStringBytes (fuel + 1) before (92 :: s) =
      readStringBytes fuel ((String.utf8EncodeChar c).reverse ++ before) r := by
  rw [readStringBytes, if_neg (by decide), if_pos rfl, h]
  rfl

/-- A character is read in at most as many steps as it has bytes. -/
theorem readStringBytes_of_spelledChar {c : Char} {s : Bytes} (h : SpelledChar c s)
    (fuel : Nat) (before r : Bytes) : ∃ left, fuel ≤ left ∧
      readStringBytes (fuel + s.length) before (s ++ r) =
        readStringBytes left ((String.utf8EncodeChar c).reverse ++ before) r := by
  -- an escape takes one step, so the fuel for its other bytes is left over
  have hescape : ∀ t : Bytes, readEscape (t ++ r) = .ok (c, r) → ∃ left, fuel ≤ left ∧
      readStringBytes (fuel + (92 :: t).length) before (92 :: t ++ r) =
        readStringBytes left ((String.utf8EncodeChar c).reverse ++ before) r := fun t ht =>
    ⟨fuel + t.length, Nat.le_add_right _ _, readStringBytes_escape ht _ before⟩
  cases h with
  | plain hquote hbackslash hcontrol =>
    exact ⟨fuel, Nat.le_refl _,
      readStringBytes_append (plain_bytes hquote hbackslash hcontrol) fuel before r⟩
  | @letter _ b h =>
    refine hescape [b] ?_
    have hletter : b ≠ 117 := by
      rintro rfl
      cases h
    rw [List.singleton_append]
    unfold readEscape
    split
    · next heq => cases heq
    · next heq => exact absurd (List.cons.inj heq).1 hletter
    · next heq =>
      cases heq
      rw [h]
  | hex h => exact hescape _ (readUnicode_of_hex h r)
  | @pair high low s t hhigh hlow hs ht =>
    refine hescape _ ?_
    rw [List.cons_append, List.append_assoc]
    exact readUnicode_of_pair hhigh hlow hs ht r

theorem readStringBytes_of_spelled {cs : List Char} {s : Bytes} (h : Spelled cs s) :
    ∀ (fuel : Nat) (before r : Bytes), s.length < fuel →
      readStringBytes fuel before (s ++ 34 :: r) =
        .ok (before.reverse ++ cs.flatMap String.utf8EncodeChar, r) := by
  induction h with
  | nil =>
    intro fuel before r hfuel
    obtain ⟨fuel, rfl⟩ := Nat.exists_eq_succ_of_ne_zero (Nat.ne_of_gt hfuel)
    rw [List.nil_append, readStringBytes, if_pos rfl, List.flatMap_nil, List.append_nil]
  | @cons c cs s t hc hcs ih =>
    intro fuel before r hfuel
    rw [List.length_append] at hfuel
    obtain ⟨left, hleft, hread⟩ :=
      readStringBytes_of_spelledChar hc (fuel - s.length) before (t ++ 34 :: r)
    rw [Nat.sub_add_cancel (by omega)] at hread
    rw [List.append_assoc, hread, ih left _ r (by omega), List.reverse_append,
      List.reverse_reverse, List.append_assoc, List.flatMap_cons]

/-- **A string is read in whatever way it is written.** -/
theorem readString_of_spelled {t : String} {s : Bytes} (h : Spelled t.toList s) (r : Bytes) :
    readString (s ++ 34 :: r) = .ok (t, r) := by
  have hbytes : readStringBytes ((s ++ 34 :: r).length + 1) [] (s ++ 34 :: r) =
      .ok (Text.encode t, r) := by
    rw [readStringBytes_of_spelled h _ _ _ (by rw [List.length_append]; omega)]
    rfl
  unfold readString
  rw [hbytes]
  simp only [bind, Except.bind, Text.decode?_encode]
  rfl

/-! ## Writing -/

theorem utf8EncodeChar_hexDigit {d : Nat} (h : d < 16) :
    ∃ b, String.utf8EncodeChar (hexDigit d) = [b] ∧ hexDigit? b = some d := by
  have hall : ∀ d < 16, (hexDigit d).toNat < 128 ∧
      hexDigit? (UInt8.ofNat (hexDigit d).toNat) = some d := by decide
  obtain ⟨hascii, hdigit⟩ := hall d h
  exact ⟨_, Text.utf8EncodeChar_of_ascii hascii, hdigit⟩

theorem spelledChar_control {c : Char} (h : c.toNat < 32) : SpelledChar c
    (['\\', 'u', '0', '0', hexDigit (c.toNat / 16), hexDigit (c.toNat % 16)].flatMap
      String.utf8EncodeChar) := by
  obtain ⟨a, hencodeA, ha⟩ := utf8EncodeChar_hexDigit (d := c.toNat / 16) (by omega)
  obtain ⟨b, hencodeB, hb⟩ := utf8EncodeChar_hexDigit (d := c.toNat % 16) (by omega)
  have hzero : hexDigit? 48 = some 0 := rfl
  have hhex := Hex.digits hzero hzero ha hb
  rw [show ((0 * 16 + 0) * 16 + c.toNat / 16) * 16 + c.toNat % 16 = c.toNat by omega] at hhex
  simp only [List.flatMap_cons, hencodeA, hencodeB]
  exact .hex hhex

theorem spelledChar_quoteChar (c : Char) :
    SpelledChar c ((quoteChar c).flatMap String.utf8EncodeChar) := by
  unfold quoteChar
  split
  · exact .letter rfl
  · exact .letter rfl
  · exact .letter rfl
  · exact .letter rfl
  · exact .letter rfl
  · exact .letter rfl
  · exact .letter rfl
  · next hquote hbackslash _ _ _ _ _ =>
    split
    · next hcontrol => exact spelledChar_control hcontrol
    · next hplain =>
      rw [List.flatMap_singleton]
      exact .plain hquote hbackslash (Nat.not_lt.1 hplain)

theorem spelled_quoteChars (cs : List Char) :
    Spelled cs ((cs.flatMap quoteChar).flatMap String.utf8EncodeChar) := by
  induction cs with
  | nil => exact .nil
  | cons c cs ih =>
    rw [List.flatMap_cons, List.flatMap_append]
    exact .cons (spelledChar_quoteChar c) ih

/-- **Strings are written in one of these ways, between quotes.** -/
theorem exists_spelled_quote (t : String) :
    ∃ s, Spelled t.toList s ∧ Text.encode (quote t) = 34 :: (s ++ [34]) := by
  refine ⟨_, spelled_quoteChars t.toList, ?_⟩
  rw [quote, Text.encode_ofList, quoteChars, List.flatMap_cons, List.flatMap_append]
  rfl

end Json

end SecretMount
