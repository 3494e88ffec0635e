import SecretMount.Text.Utf8

/-!
# Texts and their bytes

* `Text.decodeChars?_one` to `Text.decodeChars?_four` : what is decoded at the start of bytes, by
  the length of its sequence;
* `Text.decode?_encode` : the bytes of a text are decoded to the text, so texts are known by them
  (`Text.encode_injective`);
* `Text.encode_lt_encode_iff` : texts are in the order of their bytes.
-/

namespace SecretMount.Text

/-! ## Sequences -/

theorem decodeChars?_one {a : UInt8} {r : Bytes} (ha : a.toNat < 0x80) :
    decodeChars? (a :: r) = (decodeChars? r).map (Char.ofNat a.toNat :: ·) := by
  have hone : a < 0x80 := UInt8.lt_iff_toNat_lt.2 ha
  rw [decodeChars?.eq_def]
  simp only [hone, if_true]

/-- A byte that continues a sequence. -/
def Tail (b : UInt8) : Prop := 0x80 ≤ b.toNat ∧ b.toNat ≤ 0xBF

theorem isTail_iff {b : UInt8} : isTail b = true ↔ Tail b := by
  simp [isTail, Tail, UInt8.le_iff_toNat_le]

theorem decodeChars?_two {a b : UInt8} {r : Bytes} (ha : 0xC2 ≤ a.toNat ∧ a.toNat ≤ 0xDF)
    (hb : Tail b) : decodeChars? (a :: b :: r) =
      (decodeChars? r).map (Char.ofNat (a.toNat % 32 * 64 + tailBits b) :: ·) := by
  have hone : ¬ a < 0x80 := by simp only [UInt8.lt_iff_toNat_lt, UInt8.reduceToNat]; omega
  have htwo : (0xC2 ≤ a && a ≤ 0xDF && isTail b) = true := by
    simp only [Bool.and_eq_true, decide_eq_true_eq, UInt8.le_iff_toNat_le, isTail_iff]
    exact ⟨ha, hb⟩
  rw [decodeChars?.eq_def]
  simp only [hone, htwo, if_true, if_false]

/-- The second byte of a sequence is not below what shorter sequences encode, not a surrogate and
not beyond the last character. -/
theorem isSecond_of_tail {a b : UInt8} (hb : Tail b) (hlong : a.toNat = 0xE0 → 0xA0 ≤ b.toNat)
    (hsurrogate : a.toNat = 0xED → b.toNat ≤ 0x9F) (hlonger : a.toNat = 0xF0 → 0x90 ≤ b.toNat)
    (hlast : a.toNat = 0xF4 → b.toNat ≤ 0x8F) : isSecond a b = true := by
  obtain ⟨hlow, hhigh⟩ := hb
  unfold isSecond secondRange
  simp only [beq_iff_eq, ← UInt8.toNat_inj, UInt8.reduceToNat]
  split
  · next ha => simpa [UInt8.le_iff_toNat_le] using ⟨hlong ha, hhigh⟩
  · split
    · next ha => simpa [UInt8.le_iff_toNat_le] using ⟨hlow, hsurrogate ha⟩
    · split
      · next ha => simpa [UInt8.le_iff_toNat_le] using ⟨hlonger ha, hhigh⟩
      · split
        · next ha => simpa [UInt8.le_iff_toNat_le] using ⟨hlow, hlast ha⟩
        · simpa [UInt8.le_iff_toNat_le] using ⟨hlow, hhigh⟩

theorem decodeChars?_three {a b c : UInt8} {r : Bytes} (ha : 0xE0 ≤ a.toNat ∧ a.toNat ≤ 0xEF)
    (hb : isSecond a b = true) (hc : Tail c) : decodeChars? (a :: b :: c :: r) =
      (decodeChars? r).map
        (Char.ofNat (a.toNat % 16 * 4096 + tailBits b * 64 + tailBits c) :: ·) := by
  have hone : ¬ a < 0x80 := by simp only [UInt8.lt_iff_toNat_lt, UInt8.reduceToNat]; omega
  have htwo : ¬ a ≤ 0xDF := by simp only [UInt8.le_iff_toNat_le, UInt8.reduceToNat]; omega
  have hthree : (0xE0 ≤ a && a ≤ 0xEF && isSecond a b && isTail c) = true := by
    simp only [Bool.and_eq_true, decide_eq_true_eq, UInt8.le_iff_toNat_le, isTail_iff]
    exact ⟨⟨ha, hb⟩, hc⟩
  rw [decodeChars?.eq_def]
  simp [hone, htwo, hthree]

theorem decodeChars?_four {a b c d : UInt8} {r : Bytes} (ha : 0xF0 ≤ a.toNat ∧ a.toNat ≤ 0xF4)
    (hb : isSecond a b = true) (hc : Tail c) (hd : Tail d) : decodeChars? (a :: b :: c :: d :: r) =
      (decodeChars? r).map (Char.ofNat
        (a.toNat % 8 * 262144 + tailBits b * 4096 + tailBits c * 64 + tailBits d) :: ·) := by
  have hone : ¬ a < 0x80 := by simp only [UInt8.lt_iff_toNat_lt, UInt8.reduceToNat]; omega
  have htwo : ¬ a ≤ 0xDF := by simp only [UInt8.le_iff_toNat_le, UInt8.reduceToNat]; omega
  have hthree : ¬ a ≤ 0xEF := by simp only [UInt8.le_iff_toNat_le, UInt8.reduceToNat]; omega
  have hfour : (0xF0 ≤ a && a ≤ 0xF4 && isSecond a b && isTail c && isTail d) = true := by
    simp only [Bool.and_eq_true, decide_eq_true_eq, UInt8.le_iff_toNat_le, isTail_iff]
    exact ⟨⟨⟨ha, hb⟩, hc⟩, hd⟩
  rw [decodeChars?.eq_def]
  simp [hone, htwo, hthree, hfour]

/-! ## Characters -/

theorem toNat_byte {n : Nat} (h : n < 256) : (UInt8.ofNat n).toNat = n := by
  rw [UInt8.toNat_ofNat', Nat.mod_eq_of_lt h]

/-- The byte that continues a sequence with the six low bits of `n`. -/
theorem tail_ofNat (n : Nat) : Tail (UInt8.ofNat (n % 64 + 128)) := by
  rw [Tail, toNat_byte (by omega)]
  omega

theorem tailBits_ofNat (n : Nat) : tailBits (UInt8.ofNat (n % 64 + 128)) = n % 64 := by
  rw [tailBits, toNat_byte (by omega)]
  omega

/-- The bytes of a character are decoded to the character. -/
theorem decodeChars?_utf8EncodeChar (c : Char) (r : Bytes) :
    decodeChars? (String.utf8EncodeChar c ++ r) = (decodeChars? r).map (c :: ·) := by
  have hvalid : c.toNat < 0xD800 ∨ 0xDFFF < c.toNat ∧ c.toNat < 0x110000 := c.valid
  have hchar : ∀ n, n = c.toNat → Char.ofNat n = c := fun n hn => hn ▸ Char.ofNat_toNat c
  have htoNat : c.val.toNat = c.toNat := rfl
  unfold String.utf8EncodeChar
  simp only [htoNat]
  generalize c.toNat = v at *
  split
  · next hone =>
    have hbyte : (UInt8.ofNat v).toNat = v := toNat_byte (by omega)
    rw [List.singleton_append, decodeChars?_one (by omega), hbyte, hchar v rfl]
  · split
    · next htwo =>
      have hfirst : (UInt8.ofNat (v / 64 % 32 + 192)).toNat = v / 64 % 32 + 192 :=
        toNat_byte (by omega)
      rw [List.cons_append, List.singleton_append, decodeChars?_two (by omega) (tail_ofNat v),
        hfirst, tailBits_ofNat, hchar _ (by omega)]
    · split
      · next hthree =>
        have hfirst : (UInt8.ofNat (v / 4096 % 16 + 224)).toNat = v / 4096 % 16 + 224 :=
          toNat_byte (by omega)
        have hbits : (UInt8.ofNat (v / 64 % 64 + 128)).toNat = v / 64 % 64 + 128 :=
          toNat_byte (by omega)
        have hsecond := isSecond_of_tail (a := UInt8.ofNat (v / 4096 % 16 + 224))
          (tail_ofNat (v / 64)) (by omega) (by omega) (by omega) (by omega)
        rw [List.cons_append, List.cons_append, List.singleton_append,
          decodeChars?_three (by omega) hsecond (tail_ofNat v), hfirst, tailBits_ofNat,
          tailBits_ofNat, hchar _ (by omega)]
      · next hfour =>
        have hfirst : (UInt8.ofNat (v / 262144 % 8 + 240)).toNat = v / 262144 % 8 + 240 :=
          toNat_byte (by omega)
        have hbits : (UInt8.ofNat (v / 4096 % 64 + 128)).toNat = v / 4096 % 64 + 128 :=
          toNat_byte (by omega)
        have hsecond := isSecond_of_tail (a := UInt8.ofNat (v / 262144 % 8 + 240))
          (tail_ofNat (v / 4096)) (by omega) (by omega) (by omega) (by omega)
        rw [List.cons_append, List.cons_append, List.cons_append, List.singleton_append,
          decodeChars?_four (by omega) hsecond (tail_ofNat (v / 64)) (tail_ofNat v), hfirst,
          tailBits_ofNat, tailBits_ofNat, tailBits_ofNat, hchar _ (by omega)]

/-- **The bytes of a text are decoded to the text.** -/
theorem decode?_encode (s : String) : decode? (encode s) = some s := by
  have hchars : ∀ cs : List Char, decodeChars? (cs.flatMap String.utf8EncodeChar) = some cs := by
    intro cs
    induction cs with
    | nil => rfl
    | cons c cs ih =>
      rw [List.flatMap_cons, decodeChars?_utf8EncodeChar, ih, Option.map_some]
  rw [decode?, encode, hchars, Option.map_some, String.ofList_toList]

/-- Texts are known by their bytes. -/
theorem encode_injective {s t : String} (h : encode s = encode t) : s = t := by
  have hdecode := congrArg decode? h
  rwa [decode?_encode, decode?_encode, Option.some_inj] at hdecode

/-! ## Order -/

theorem cons_lt_cons {m n : Nat} {r s : Bytes} (hn : n < 256) (hle : m ≤ n) (h : m = n → r < s) :
    UInt8.ofNat m :: r < UInt8.ofNat n :: s := by
  rw [List.cons_lt_cons_iff]
  rcases Nat.lt_or_eq_of_le hle with hlt | heq
  · refine Or.inl (UInt8.lt_iff_toNat_lt.2 ?_)
    rwa [toNat_byte (by omega), toNat_byte hn]
  · exact Or.inr ⟨congrArg UInt8.ofNat heq, h heq⟩

/-- The bytes of the smaller of two characters come first, whatever follows them. -/
theorem utf8EncodeChar_lt {c d : Char} (h : c < d) (r s : Bytes) :
    String.utf8EncodeChar c ++ r < String.utf8EncodeChar d ++ s := by
  have hlt : c.toNat < d.toNat := h
  have hlast : d.toNat < 0x110000 := by
    have hvalid : d.toNat < 0xD800 ∨ 0xDFFF < d.toNat ∧ d.toNat < 0x110000 := d.valid
    omega
  have htoNat : ∀ a : Char, a.val.toNat = a.toNat := fun _ => rfl
  unfold String.utf8EncodeChar
  simp only [htoNat]
  generalize c.toNat = m at *
  generalize d.toNat = n at *
  -- one case for each two lengths, of which the first byte decides those that differ
  repeat' split
  all_goals
    simp only [List.cons_append, List.nil_append]
    refine cons_lt_cons (by omega) (by omega) fun hfirst => ?_
  any_goals omega
  · refine cons_lt_cons (by omega) (by omega) fun hsecond => ?_
    omega
  · refine cons_lt_cons (by omega) (by omega) fun hsecond => ?_
    refine cons_lt_cons (by omega) (by omega) fun hthird => ?_
    omega
  · refine cons_lt_cons (by omega) (by omega) fun hsecond => ?_
    refine cons_lt_cons (by omega) (by omega) fun hthird => ?_
    refine cons_lt_cons (by omega) (by omega) fun hfourth => ?_
    omega

theorem encode_lt_encode {s t : String} (h : s < t) : encode s < encode t := by
  have hlex : List.Lex (· < ·) s.toList t.toList := h
  unfold encode
  generalize s.toList = cs at hlex ⊢
  generalize t.toList = ds at hlex ⊢
  induction hlex with
  | @nil d ds =>
    obtain ⟨b, r, hencoded⟩ := List.exists_cons_of_ne_nil (String.utf8EncodeChar_ne_nil (c := d))
    rw [List.flatMap_cons, hencoded]
    exact List.nil_lt_cons b _
  | rel hlt => exact utf8EncodeChar_lt hlt _ _
  | cons _ ih => exact List.append_left_lt ih

/-- **Texts are in the order of their bytes.** -/
theorem encode_lt_encode_iff {s t : String} : encode s < encode t ↔ s < t := by
  refine ⟨fun h => ?_, encode_lt_encode⟩
  rcases Std.lt_trichotomy s t with hlt | rfl | hgt
  · exact hlt
  · exact absurd h (List.lt_irrefl _)
  · exact absurd h (List.lt_asymm (encode_lt_encode hgt))

end SecretMount.Text
