import SecretMount.Proofs.Forms

/-!
# What is read as a JSON text

A text that is read is a text of the grammar, so that nothing else is taken for one.

* `Text.utf8EncodeChar_two` to `Text.utf8EncodeChar_four` : a sequence that is decoded is that of
  its character;
* `Json.Raw` : the bytes of a string with its escapes resolved, characters or not, and
  `Json.spelled_of_raw` : when they are those of characters, the string is spelled;
* `NumberToken.magnitude_of_read`, `Json.writes_of_readLeaf`, `Json.writes_of_readValue` : what is
  read of numbers, of other values and of lists and objects;
* `Json.TextOf`, `Json.parse_eq_ok_iff` : a value is read exactly from its texts.
-/

namespace SecretMount

/-! ## Sequences -/

namespace Text

theorem toNat_ofNat {n : Nat} (h : n < 0xD800 ∨ 0xDFFF < n ∧ n < 0x110000) :
    (Char.ofNat n).toNat = n := by
  have hvalid : n.isValidChar := h
  rw [Char.ofNat, dif_pos hvalid]
  rfl

/-- The bytes of a character by its number. -/
theorem utf8EncodeChar_ofNat {n : Nat} (h : n < 0xD800 ∨ 0xDFFF < n ∧ n < 0x110000) :
    String.utf8EncodeChar (Char.ofNat n) =
      if n ≤ 0x7F then [UInt8.ofNat n]
      else if n ≤ 0x7FF then [UInt8.ofNat (n / 64 % 32 + 192), UInt8.ofNat (n % 64 + 128)]
      else if n ≤ 0xFFFF then
        [UInt8.ofNat (n / 4096 % 16 + 224), UInt8.ofNat (n / 64 % 64 + 128),
          UInt8.ofNat (n % 64 + 128)]
      else
        [UInt8.ofNat (n / 262144 % 8 + 240), UInt8.ofNat (n / 4096 % 64 + 128),
          UInt8.ofNat (n / 64 % 64 + 128), UInt8.ofNat (n % 64 + 128)] := by
  have hval : (Char.ofNat n).val.toNat = n := toNat_ofNat h
  unfold String.utf8EncodeChar
  simp only [hval]

theorem utf8EncodeChar_one {a : UInt8} (ha : a.toNat < 0x80) :
    (Char.ofNat a.toNat).toNat = a.toNat ∧ String.utf8EncodeChar (Char.ofNat a.toNat) = [a] := by
  refine ⟨toNat_ofNat (by omega), ?_⟩
  rw [utf8EncodeChar_ofNat (by omega), if_pos (by omega), UInt8.ofNat_toNat]

theorem utf8EncodeChar_two {a b : UInt8} (ha : 0xC2 ≤ a.toNat ∧ a.toNat ≤ 0xDF) (hb : Tail b) :
    128 ≤ (Char.ofNat (a.toNat % 32 * 64 + tailBits b)).toNat ∧
      String.utf8EncodeChar (Char.ofNat (a.toNat % 32 * 64 + tailBits b)) = [a, b] := by
  obtain ⟨hlow, hhigh⟩ := hb
  have hbits : tailBits b = b.toNat % 64 := rfl
  generalize hn : a.toNat % 32 * 64 + tailBits b = n
  rw [toNat_ofNat (by omega), utf8EncodeChar_ofNat (by omega), if_neg (by omega), if_pos (by omega)]
  simp only [List.cons.injEq, and_true, ← UInt8.toNat_inj]
  rw [toNat_byte (by omega), toNat_byte (by omega)]
  omega

/-- What the second byte of a sequence rules out. -/
theorem bounds_of_isSecond {a b : UInt8} (h : isSecond a b = true) :
    Tail b ∧ (a.toNat = 0xE0 → 0xA0 ≤ b.toNat) ∧ (a.toNat = 0xED → b.toNat ≤ 0x9F) ∧
      (a.toNat = 0xF0 → 0x90 ≤ b.toNat) ∧ (a.toNat = 0xF4 → b.toNat ≤ 0x8F) := by
  unfold isSecond secondRange at h
  unfold Tail
  simp only [beq_iff_eq, ← UInt8.toNat_inj, UInt8.reduceToNat, Bool.and_eq_true,
    decide_eq_true_eq, UInt8.le_iff_toNat_le] at h
  split at h
  · simp only [UInt8.reduceToNat] at h
    omega
  · split at h
    · simp only [UInt8.reduceToNat] at h
      omega
    · split at h
      · simp only [UInt8.reduceToNat] at h
        omega
      · split at h
        · simp only [UInt8.reduceToNat] at h
          omega
        · simp only [UInt8.reduceToNat] at h
          omega

theorem utf8EncodeChar_three {a b c : UInt8} (ha : 0xE0 ≤ a.toNat ∧ a.toNat ≤ 0xEF)
    (hb : isSecond a b = true) (hc : Tail c) :
    128 ≤ (Char.ofNat (a.toNat % 16 * 4096 + tailBits b * 64 + tailBits c)).toNat ∧
      String.utf8EncodeChar (Char.ofNat (a.toNat % 16 * 4096 + tailBits b * 64 + tailBits c)) =
        [a, b, c] := by
  obtain ⟨⟨hlow, hhigh⟩, hlong, hsurrogate, -, -⟩ := bounds_of_isSecond hb
  obtain ⟨hthird, hthird'⟩ := hc
  have hbits : tailBits b = b.toNat % 64 := rfl
  have hbits' : tailBits c = c.toNat % 64 := rfl
  generalize hn : a.toNat % 16 * 4096 + tailBits b * 64 + tailBits c = n
  rw [toNat_ofNat (by omega), utf8EncodeChar_ofNat (by omega), if_neg (by omega), if_neg (by omega),
    if_pos (by omega)]
  simp only [List.cons.injEq, and_true, ← UInt8.toNat_inj]
  rw [toNat_byte (by omega), toNat_byte (by omega), toNat_byte (by omega)]
  omega

theorem utf8EncodeChar_four {a b c d : UInt8} (ha : 0xF0 ≤ a.toNat ∧ a.toNat ≤ 0xF4)
    (hb : isSecond a b = true) (hc : Tail c) (hd : Tail d) :
    128 ≤ (Char.ofNat (a.toNat % 8 * 262144 + tailBits b * 4096 + tailBits c * 64 +
        tailBits d)).toNat ∧
      String.utf8EncodeChar (Char.ofNat
        (a.toNat % 8 * 262144 + tailBits b * 4096 + tailBits c * 64 + tailBits d)) =
        [a, b, c, d] := by
  obtain ⟨⟨hlow, hhigh⟩, -, -, hlong, hlast⟩ := bounds_of_isSecond hb
  obtain ⟨hthird, hthird'⟩ := hc
  obtain ⟨hfourth, hfourth'⟩ := hd
  have hbits : tailBits b = b.toNat % 64 := rfl
  have hbits' : tailBits c = c.toNat % 64 := rfl
  have hbits'' : tailBits d = d.toNat % 64 := rfl
  generalize hn : a.toNat % 8 * 262144 + tailBits b * 4096 + tailBits c * 64 + tailBits d = n
  rw [toNat_ofNat (by omega), utf8EncodeChar_ofNat (by omega), if_neg (by omega), if_neg (by omega),
    if_neg (by omega)]
  simp only [List.cons.injEq, and_true, ← UInt8.toNat_inj]
  rw [toNat_byte (by omega), toNat_byte (by omega), toNat_byte (by omega), toNat_byte (by omega)]
  omega

/-- No character starts with a byte that continues a sequence. -/
theorem head_utf8EncodeChar (c : Char) : ∃ b r, String.utf8EncodeChar c = b :: r ∧ ¬ Tail b := by
  have hbyte : ∀ n < 256, n < 0x80 ∨ 0xBF < n → ¬ Tail (UInt8.ofNat n) := by
    intro n hn hrange
    rw [Tail, toNat_byte hn]
    omega
  have hvalid : c.toNat < 0xD800 ∨ 0xDFFF < c.toNat ∧ c.toNat < 0x110000 := c.valid
  rw [← Char.ofNat_toNat c, utf8EncodeChar_ofNat hvalid]
  split
  · exact ⟨_, _, rfl, hbyte _ (by omega) (by omega)⟩
  · split
    · exact ⟨_, _, rfl, hbyte _ (by omega) (by omega)⟩
    · split
      · exact ⟨_, _, rfl, hbyte _ (by omega) (by omega)⟩
      · exact ⟨_, _, rfl, hbyte _ (by omega) (by omega)⟩

/-- The character at the start of bytes that are decoded. -/
structure Starts (a : UInt8) (r : Bytes) (cs : List Char) (c : Char) (tail rest : Bytes)
    (ds : List Char) : Prop where
  bytes : r = tail ++ rest
  chars : cs = c :: ds
  encoded : String.utf8EncodeChar c = a :: tail
  tails : ∀ b ∈ tail, Tail b
  decoded : decodeChars? rest = some ds
  toNat : c.toNat = a.toNat ∨ 128 ≤ c.toNat

theorem exists_starts {a : UInt8} {r : Bytes} {cs : List Char}
    (h : decodeChars? (a :: r) = some cs) : ∃ c tail rest ds, Starts a r cs c tail rest ds := by
  rw [decodeChars?.eq_def] at h
  simp only at h
  split at h
  · next hone =>
    rw [UInt8.lt_iff_toNat_lt] at hone
    obtain ⟨ds, hds, rfl⟩ := Option.map_eq_some_iff.1 h
    obtain ⟨hchar, hencoded⟩ := utf8EncodeChar_one hone
    exact ⟨_, [], r, ds, rfl, rfl, hencoded, nofun, hds, Or.inl hchar⟩
  · split at h
    · cases h
    · next b r =>
      split at h
      · next htwo =>
        simp only [Bool.and_eq_true, decide_eq_true_eq, UInt8.le_iff_toNat_le, UInt8.reduceToNat,
          isTail_iff] at htwo
        obtain ⟨ds, hds, rfl⟩ := Option.map_eq_some_iff.1 h
        obtain ⟨hchar, hencoded⟩ := utf8EncodeChar_two htwo.1 htwo.2
        exact ⟨_, [b], r, ds, rfl, rfl, hencoded, by simpa using htwo.2, hds, Or.inr hchar⟩
      · split at h
        · cases h
        · next c r =>
          split at h
          · next hthree =>
            simp only [Bool.and_eq_true, decide_eq_true_eq, UInt8.le_iff_toNat_le,
              UInt8.reduceToNat, isTail_iff] at hthree
            obtain ⟨⟨ha, hb⟩, hc⟩ := hthree
            obtain ⟨ds, hds, rfl⟩ := Option.map_eq_some_iff.1 h
            obtain ⟨hchar, hencoded⟩ := utf8EncodeChar_three ha hb hc
            exact ⟨_, [b, c], r, ds, rfl, rfl, hencoded,
              by simpa using ⟨(bounds_of_isSecond hb).1, hc⟩, hds, Or.inr hchar⟩
          · split at h
            · cases h
            · next d r =>
              split at h
              · next hfour =>
                simp only [Bool.and_eq_true, decide_eq_true_eq, UInt8.le_iff_toNat_le,
                  UInt8.reduceToNat, isTail_iff] at hfour
                obtain ⟨⟨⟨ha, hb⟩, hc⟩, hd⟩ := hfour
                obtain ⟨ds, hds, rfl⟩ := Option.map_eq_some_iff.1 h
                obtain ⟨hchar, hencoded⟩ := utf8EncodeChar_four ha hb hc hd
                exact ⟨_, [b, c, d], r, ds, rfl, rfl, hencoded,
                  by simpa using ⟨(bounds_of_isSecond hb).1, hc, hd⟩, hds, Or.inr hchar⟩
              · cases h

end Text

namespace Json

/-! ## Strings -/

/-- The bytes that a string between quotes stands for, which need not be those of characters. -/
inductive Raw : Bytes → Bytes → Prop
  | nil : Raw [] []
  | byte {b : UInt8} {bs s : Bytes} (hquote : b ≠ 34) (hbackslash : b ≠ 92)
      (hcontrol : 32 ≤ b.toNat) (h : Raw bs s) : Raw (b :: bs) (b :: s)
  | escape {c : Char} {e bs s : Bytes} (hc : SpelledChar c (92 :: e)) (h : Raw bs s) :
      Raw (String.utf8EncodeChar c ++ bs) (92 :: e ++ s)

theorem hexDigit?_lt {b : UInt8} {d : Nat} (h : hexDigit? b = some d) : d < 16 := by
  unfold hexDigit? at h
  simp only [UInt8.le_iff_toNat_le, UInt8.reduceToNat] at h
  split at h
  · cases h
    omega
  · split at h
    · cases h
      omega
    · split at h
      · cases h
        omega
      · cases h

theorem hex_of_readHex {s r : Bytes} {n : Nat} (h : readHex s = .ok (n, r)) :
    ∃ x, s = x ++ r ∧ Hex n x ∧ n < 0x10000 := by
  unfold readHex at h
  split at h
  · next a b c d _ =>
    split at h
    · next w x y z ha hb hc hd =>
      cases h
      have := hexDigit?_lt ha
      have := hexDigit?_lt hb
      have := hexDigit?_lt hc
      have := hexDigit?_lt hd
      exact ⟨[a, b, c, d], rfl, .digits ha hb hc hd, by omega⟩
    · cases h
  · cases h

theorem hex_of_readTrailing {s r : Bytes} {n : Nat} (h : readTrailing s = .ok (n, r)) :
    ∃ x, s = 92 :: 117 :: (x ++ r) ∧ Hex n x ∧ isTrailing n = true := by
  unfold readTrailing at h
  split at h
  · cases h
  · split at h
    · cases h
    · obtain ⟨⟨m, t⟩, hhex, h⟩ := bind_eq_ok_iff.1 h
      simp only at h
      split at h
      · next htrailing =>
        cases h
        obtain ⟨x, rfl, hx, -⟩ := hex_of_readHex hhex
        exact ⟨x, rfl, hx, htrailing⟩
      · cases h
    · cases h
  · cases h

theorem spelledChar_of_readUnicode {s r : Bytes} {c : Char} (h : readUnicode s = .ok (c, r)) :
    ∃ e, s = e ++ r ∧ SpelledChar c (92 :: 117 :: e) := by
  obtain ⟨⟨n, t⟩, hhex, hchar⟩ := bind_eq_ok_iff.1 h
  obtain ⟨x, rfl, hx, hlt⟩ := hex_of_readHex hhex
  simp only at hchar
  split at hchar
  · cases hchar
  · next htrailing =>
    split at hchar
    · next hleading =>
      obtain ⟨⟨m, u⟩, hlow, hchar⟩ := bind_eq_ok_iff.1 hchar
      obtain ⟨rfl, rfl⟩ := Prod.mk.inj (Except.ok.inj hchar)
      obtain ⟨y, rfl, hy, hm⟩ := hex_of_readTrailing hlow
      exact ⟨x ++ 92 :: 117 :: y, by simp, .pair hleading hm hx hy⟩
    · next hleading =>
      cases hchar
      unfold isTrailing at htrailing
      unfold isLeading at hleading
      simp only [Bool.and_eq_true, decide_eq_true_eq] at htrailing hleading
      refine ⟨x, rfl, .hex ?_⟩
      rw [Text.toNat_ofNat (by omega)]
      exact hx

theorem spelledChar_of_readEscape {s r : Bytes} {c : Char} (h : readEscape s = .ok (c, r)) :
    ∃ e, s = e ++ r ∧ SpelledChar c (92 :: e) := by
  unfold readEscape at h
  split at h
  · cases h
  · obtain ⟨e, rfl, he⟩ := spelledChar_of_readUnicode h
    exact ⟨117 :: e, rfl, he⟩
  · next b t _ =>
    split at h
    · next hb =>
      cases h
      exact ⟨[b], rfl, .letter hb⟩
    · cases h

theorem raw_of_readStringBytes : ∀ {fuel : Nat} {before s bs r : Bytes},
    readStringBytes fuel before s = .ok (bs, r) →
      ∃ t more, s = t ++ 34 :: r ∧ bs = before.reverse ++ more ∧ Raw more t
  | 0, _, _, _, _, h => nomatch h
  | _ + 1, _, [], _, _, h => nomatch h
  | fuel + 1, before, b :: s, bs, r, h => by
    unfold readStringBytes at h
    split at h
    · next hb =>
      cases h
      exact ⟨[], [], by rw [hb, List.nil_append], (List.append_nil _).symm, .nil⟩
    · next hquote =>
      split at h
      · next hb =>
        obtain ⟨⟨c, u⟩, hescape, hrest⟩ := bind_eq_ok_iff.1 h
        obtain ⟨e, rfl, he⟩ := spelledChar_of_readEscape hescape
        obtain ⟨t, more, rfl, rfl, hraw⟩ := raw_of_readStringBytes hrest
        exact ⟨92 :: e ++ t, String.utf8EncodeChar c ++ more, by simp [hb], by simp,
          .escape he hraw⟩
      · next hbackslash =>
        split at h
        · cases h
        · next hcontrol =>
          obtain ⟨t, more, rfl, rfl, hraw⟩ := raw_of_readStringBytes h
          rw [UInt8.lt_iff_toNat_lt] at hcontrol
          exact ⟨b :: t, b :: more, rfl, by simp,
            .byte hquote hbackslash (Nat.not_lt.1 hcontrol) hraw⟩

/-- Bytes that continue a sequence do not come from an escape. -/
theorem Raw.tails {tail bs s : Bytes} (h : Raw (tail ++ bs) s) (htail : ∀ b ∈ tail, Text.Tail b) :
    ∃ t, s = tail ++ t ∧ Raw bs t := by
  induction tail generalizing s with
  | nil => exact ⟨s, rfl, h⟩
  | cons b tail ih =>
    obtain ⟨hb, htail⟩ := List.forall_mem_cons.1 htail
    rw [List.cons_append] at h
    generalize hbytes : b :: (tail ++ bs) = bytes at h
    cases h with
    | nil => cases hbytes
    | byte _ _ _ h =>
      cases hbytes
      obtain ⟨t, rfl, ht⟩ := ih h htail
      exact ⟨t, rfl, ht⟩
    | @escape c e more t hc h =>
      obtain ⟨a, r, hencoded, ha⟩ := Text.head_utf8EncodeChar c
      rw [hencoded, List.cons_append] at hbytes
      exact absurd ((List.cons.inj hbytes).1 ▸ hb) ha

/-- **What stands between quotes is spelled when its bytes are those of characters.** -/
theorem spelled_of_raw {bs s : Bytes} {cs : List Char} (h : Raw bs s)
    (hcs : Text.decodeChars? bs = some cs) : Spelled cs s := by
  induction hn : bs.length using Nat.strongRecOn generalizing bs s cs with
  | ind n ih =>
    cases h with
    | nil =>
      cases hcs
      exact .nil
    | @escape c e more t hc h =>
      rw [Text.decodeChars?_utf8EncodeChar, Option.map_eq_some_iff] at hcs
      obtain ⟨ds, hds, rfl⟩ := hcs
      obtain ⟨a, r, hencoded, -⟩ := Text.head_utf8EncodeChar c
      rw [hencoded, List.length_append, List.length_cons] at hn
      exact .cons hc (ih _ (by omega) h hds rfl)
    | @byte b more t hquote hbackslash hcontrol h =>
      obtain ⟨c, tail, rest, ds, rfl, rfl, hencoded, htail, hds, hnat⟩ := Text.exists_starts hcs
      obtain ⟨t, rfl, ht⟩ := h.tails htail
      rw [List.length_cons, List.length_append] at hn
      have hplain : SpelledChar c (String.utf8EncodeChar c) := by
        refine .plain ?_ ?_ (by omega)
        · rintro rfl
          have hbyte : b.toNat = 34 := by
            rcases hnat with hnat | hnat
            · exact hnat.symm
            · exact absurd hnat (by decide)
          exact hquote (UInt8.toNat_inj.1 hbyte)
        · rintro rfl
          have hbyte : b.toNat = 92 := by
            rcases hnat with hnat | hnat
            · exact hnat.symm
            · exact absurd hnat (by decide)
          exact hbackslash (UInt8.toNat_inj.1 hbyte)
      have hspelled := Spelled.cons hplain (ih _ (by omega) ht hds rfl)
      rw [hencoded] at hspelled
      exact hspelled

theorem spelled_of_readString {s r : Bytes} {t : String} (h : readString s = .ok (t, r)) :
    ∃ x, s = x ++ 34 :: r ∧ Spelled t.toList x := by
  obtain ⟨⟨bs, u⟩, hbytes, htext⟩ := bind_eq_ok_iff.1 h
  obtain ⟨x, more, rfl, hmore, hraw⟩ := raw_of_readStringBytes hbytes
  rw [List.reverse_nil, List.nil_append] at hmore
  subst hmore
  simp only at htext
  split at htext
  · next hdecode =>
    cases htext
    obtain ⟨cs, hcs, rfl⟩ := Option.map_eq_some_iff.1 hdecode
    rw [String.toList_ofList]
    exact ⟨x, rfl, spelled_of_raw hraw hcs⟩
  · cases htext

/-! ## Numbers -/

theorem spelledFraction_of_readFraction {s r : Bytes} {ds : List Nat}
    (h : readFraction s = .ok (ds, r)) : ∃ f, s = f ++ r ∧ SpelledFraction ds f := by
  unfold readFraction at h
  split at h
  · next t =>
    obtain ⟨ht, hall, -⟩ := takeDigits_spec t
    split at h
    · cases h
    · cases h
    · next hne htake =>
      cases h
      rw [htake] at ht hall
      exact ⟨46 :: ds.map digitByte, congrArg (46 :: ·) ht, .digits hne hall⟩
  · cases h
    exact ⟨[], rfl, .none⟩

theorem eq_of_readExponentSign (s : Bytes) : ∃ sign, s = sign ++ (readExponentSign s).2 ∧
    (sign = [] ∧ (readExponentSign s).1 = false ∨
      sign = [if (readExponentSign s).1 then 45 else 43]) := by
  unfold readExponentSign
  split
  · exact ⟨[43], rfl, Or.inr rfl⟩
  · exact ⟨[45], rfl, Or.inr rfl⟩
  · exact ⟨[], rfl, Or.inl ⟨rfl, rfl⟩⟩

theorem spelledExponent_of_readExponent {s r : Bytes} {x : Option (Bool × List Nat)}
    (h : readExponent s = .ok (x, r)) : ∃ e, s = e ++ r ∧ SpelledExponent x e := by
  unfold readExponent at h
  split at h
  · cases h
    exact ⟨[], rfl, .none⟩
  · next letter t =>
    split at h
    · next hletter =>
      obtain ⟨sign, ht, hsign⟩ := eq_of_readExponentSign t
      generalize hread : readExponentSign t = y at h ht hsign
      obtain ⟨negative, u⟩ := y
      simp only at h ht hsign
      split at h
      · cases h
      · split at h
        · cases h
        · next ds _ hne htake =>
          cases h
          obtain ⟨hu, hall, -⟩ := takeDigits_spec _
          rw [htake] at hu hall
          rw [hu] at ht
          refine ⟨letter :: (sign ++ ds.map digitByte), by rw [ht]; simp, ?_⟩
          rcases hsign with ⟨rfl, rfl⟩ | rfl
          · exact .unsigned hletter hne hall
          · exact .signed hletter hne hall
    · cases h
      exact ⟨[], rfl, .none⟩

theorem NumberToken.magnitude_of_read {negative : Bool} {s r : Bytes} {t : NumberToken}
    (h : NumberToken.read negative s = .ok (t, r)) :
    t.negative = negative ∧ ∃ m, s = m ++ r ∧ t.Magnitude m := by
  obtain ⟨⟨whole, s₁⟩, hwhole, h⟩ := bind_eq_ok_iff.1 h
  obtain ⟨⟨fraction, s₂⟩, hpoint, h⟩ := bind_eq_ok_iff.1 h
  obtain ⟨⟨exponent, s₃⟩, hletter, h⟩ := bind_eq_ok_iff.1 h
  cases h
  obtain ⟨hcanonical, rfl⟩ := canonical_of_readWhole hwhole
  obtain ⟨f, rfl, hf⟩ := spelledFraction_of_readFraction hpoint
  obtain ⟨e, rfl, he⟩ := spelledExponent_of_readExponent hletter
  exact ⟨rfl, whole.map digitByte ++ (f ++ e), by simp, .mk hcanonical hf he⟩

/-- A number that is read is an integer in its decimal text, or keeps its text. -/
theorem writes_of_spelled (depth : Nat) {t : NumberToken} {s rest : Bytes} {n : Number}
    (h : t.Spelled s) (hvalue : t.value rest = .ok n) :
    ∃ f, Writes depth f s ∧ f.value? = some (.number n) := by
  unfold NumberToken.value at hvalue
  split at hvalue
  · next i hint =>
    cases hvalue
    obtain ⟨m, hm, rfl⟩ := h
    obtain ⟨hfraction, hexponent, -⟩ := NumberToken.int?_eq_some_iff.1 hint
    obtain ⟨hwhole, hf, he⟩ := hm
    obtain ⟨hfits, hencode⟩ := NumberToken.encode_of_int? hwhole hint
    simp only at hfraction hexponent
    subst hfraction hexponent
    cases he
    cases hf with
    | digits hne _ => exact absurd rfl hne
    | none =>
      refine ⟨.integer i, ?_, rfl⟩
      have hwrites : Writes depth (.integer i) _ := .integer hfits
      rw [hencode, NumberToken.bytes] at hwrites
      simp only [List.append_nil]
      split <;> simp_all
  · next hint =>
    obtain ⟨x, hx, rfl⟩ := map_eq_ok_iff.1 hvalue
    refine ⟨.real t s, .real h hint, ?_⟩
    rw [Form.value?, NumberToken.real_eq_ok_iff.1 hx]
    rfl

/-! ## Values -/

theorem eq_of_readWord {word s r : Bytes} (h : readWord word s = .ok r) : s = word ++ r := by
  induction word generalizing s with
  | nil =>
    cases h
    rfl
  | cons a word ih =>
    cases s with
    | nil => cases h
    | cons b s =>
      unfold readWord at h
      split at h
      · next hab => rw [hab, List.cons_append, ih h]
      · cases h

theorem writes_of_readLeaf (depth : Nat) {b : UInt8} {r rest : Bytes} {v : Json}
    (h : readLeaf b r = .ok (v, rest)) :
    ∃ t f, b :: r = t ++ rest ∧ Writes depth f t ∧ f.value? = some v := by
  unfold readLeaf at h
  split at h
  · next hb =>
    obtain ⟨u, hword, heq⟩ := map_eq_ok_iff.1 h
    cases heq
    exact ⟨[110, 117, 108, 108], .null, by rw [hb, eq_of_readWord hword]; rfl, .null, rfl⟩
  split at h
  · next hb =>
    obtain ⟨u, hword, heq⟩ := map_eq_ok_iff.1 h
    cases heq
    exact ⟨[116, 114, 117, 101], .bool true, by rw [hb, eq_of_readWord hword]; rfl, .true, rfl⟩
  split at h
  · next hb =>
    obtain ⟨u, hword, heq⟩ := map_eq_ok_iff.1 h
    cases heq
    exact ⟨[102, 97, 108, 115, 101], .bool false, by rw [hb, eq_of_readWord hword]; rfl, .false,
      rfl⟩
  split at h
  · next hb =>
    obtain ⟨⟨t, u⟩, hstring, heq⟩ := map_eq_ok_iff.1 h
    cases heq
    obtain ⟨x, rfl, hx⟩ := spelled_of_readString hstring
    exact ⟨34 :: (x ++ [34]), .string t, by rw [hb]; simp, .string hx, rfl⟩
  split at h
  · obtain ⟨⟨t, u⟩, hread, h⟩ := bind_eq_ok_iff.1 h
    obtain ⟨n, hvalue, h⟩ := bind_eq_ok_iff.1 h
    cases h
    obtain ⟨hsign, m, hs, hm⟩ := NumberToken.magnitude_of_read hread
    have hbytes : b :: r = (if t.negative then 45 :: m else m) ++ rest := by
      by_cases hb : b = 45
      · simp_all
      · simp_all
    obtain ⟨f, hf, hv⟩ := writes_of_spelled depth ⟨m, hm, rfl⟩ hvalue
    exact ⟨_, f, hbytes, hf, hv⟩
  · cases h

/-! ## Lists and objects -/

/-- What stands in front of `rest` in `s` is a text of `v`. -/
def Recognized (depth : Nat) (s : Bytes) (v : Json) (rest : Bytes) : Prop :=
  ∃ before t f, Blank before ∧ s = before ++ (t ++ rest) ∧ Writes depth f t ∧ f.value? = some v

theorem blank_of_dropSpace {s r : Bytes} {b : UInt8} (h : dropSpace s = b :: r) :
    ∃ before, Blank before ∧ s = before ++ b :: r := by
  obtain ⟨before, hbefore, hs⟩ := exists_blank s
  exact ⟨before, hbefore, by rw [← h, ← hs]⟩

section Nested

variable {depth : Nat} {item : ItemReader}
  (hitem : ∀ {s v rest}, item .whole s = .ok (v, rest) → Recognized depth s v rest)

include hitem

theorem writes_of_readItems : ∀ {fuel index : Nat} {s rest : Bytes} {vs : List Json},
    readItems item .whole fuel index s = .ok (vs, rest) →
      ∃ before t fs, Blank before ∧ s = before ++ (t ++ rest) ∧ WritesItems depth fs t ∧
        itemValues? fs = some vs
  | 0, _, _, _, _, h => nomatch h
  | fuel + 1, index, s, rest, vs, h => by
    obtain ⟨⟨v, u⟩, hfirst, hmore⟩ := bind_eq_ok_iff.1 h
    obtain ⟨before, t, f, hbefore, rfl, hf, hv⟩ := hitem hfirst
    simp only at hmore
    split at hmore
    · cases hmore
    · next hu =>
      cases hmore
      obtain ⟨after, hafter, rfl⟩ := blank_of_dropSpace hu
      exact ⟨before, t ++ (after ++ [93]), [f], hbefore, by simp, .last hf hafter,
        by simp [itemValues?, hv]⟩
    · next r hu =>
      obtain ⟨after, hafter, rfl⟩ := blank_of_dropSpace hu
      split at hmore
      · cases hmore
      · cases hmore
      · obtain ⟨⟨ws, u⟩, hitems, heq⟩ := bind_eq_ok_iff.1 hmore
        cases heq
        obtain ⟨next, x, fs, hnext, hx, hfs, hws⟩ := writes_of_readItems hitems
        obtain ⟨skipped, hskipped, hr⟩ := exists_blank r
        rw [hx] at hr
        refine ⟨before, t ++ (after ++ 44 :: (skipped ++ next ++ x)), f :: fs, hbefore, ?_,
          .more hf hafter ?_ hfs, by simp [itemValues?, hv, hws]⟩
        · rw [hr]
          simp
        · exact List.forall_mem_append.2 ⟨hskipped, hnext⟩
    · cases hmore

theorem writes_of_readList {s rest : Bytes} {vs : List Json}
    (h : readList item .whole s = .ok (vs, rest)) :
    ∃ t f, 91 :: s = t ++ rest ∧ Writes (depth + 1) f t ∧ f.value? = some (.array vs) := by
  unfold readList at h
  split at h
  · cases h
  · next hs =>
    cases h
    obtain ⟨before, hbefore, rfl⟩ := blank_of_dropSpace hs
    exact ⟨91 :: (before ++ [93]), .array [], by simp, .emptyArray hbefore, rfl⟩
  · obtain ⟨next, x, fs, hnext, hx, hfs, hvs⟩ := writes_of_readItems hitem h
    obtain ⟨skipped, hskipped, hs⟩ := exists_blank s
    rw [hx] at hs
    refine ⟨91 :: (skipped ++ next ++ x), .array fs, ?_,
      .array (List.forall_mem_append.2 ⟨hskipped, hnext⟩) hfs, ?_⟩
    · rw [hs]
      simp
    · rw [Form.value?, hvs]
      rfl

theorem key_of_readMember {k : String} {s rest x : Bytes} {v? : Option Json}
    (hx : Spelled k.toList x) (h : readMember item .whole k s = .ok (v?, rest)) :
    ∃ q t f v, 34 :: (x ++ 34 :: s) = q ++ (t ++ rest) ∧ WritesKey k q ∧ Writes depth f t ∧
      f.value? = some v ∧ v? = some v := by
  unfold readMember at h
  split at h
  · cases h
  · next r hs =>
    obtain ⟨between, hbetween, rfl⟩ := blank_of_dropSpace hs
    obtain ⟨⟨v, u⟩, hvalue, heq⟩ := bind_eq_ok_iff.1 h
    cases heq
    obtain ⟨after, t, f, hafter, rfl, hf, hv⟩ := hitem hvalue
    exact ⟨34 :: (x ++ 34 :: (between ++ 58 :: after)), t, f, v, by simp,
      .mk hx hbetween hafter, hf, hv, rfl⟩
  · cases h

theorem writes_of_readMembers : ∀ {fuel : Nat} {s rest : Bytes} {ms : List (String × Json)},
    readMembers item .whole fuel (34 :: s) = .ok (ms, rest) →
      ∃ t fs, 34 :: s = t ++ rest ∧ WritesMembers depth fs t ∧ memberValues? fs = some ms
  | 0, _, _, _, h => nomatch h
  | fuel + 1, s, rest, ms, h => by
    obtain ⟨⟨k, r⟩, hkey, hbehind⟩ := bind_eq_ok_iff.1 h
    obtain ⟨⟨v?, u⟩, hmember, hmore⟩ := bind_eq_ok_iff.1 hbehind
    obtain ⟨x, hx, hspelled⟩ := spelled_of_readString hkey
    obtain ⟨q, t, f, v, hs, hq, hf, hv, rfl⟩ := key_of_readMember hitem hspelled hmember
    rw [List.drop_one, List.tail_cons] at hx
    rw [hx, hs]
    simp only at hmore
    split at hmore
    · cases hmore
    · next hu =>
      cases hmore
      obtain ⟨after, hafter, rfl⟩ := blank_of_dropSpace hu
      exact ⟨q ++ (t ++ (after ++ [125])), [(k, f)], by simp, .last hq hf hafter,
        by simp [memberValues?, hv]⟩
    · next r hu =>
      obtain ⟨after, hafter, rfl⟩ := blank_of_dropSpace hu
      split at hmore
      · cases hmore
      · next y hr =>
        obtain ⟨⟨ns, u⟩, hmembers, heq⟩ := bind_eq_ok_iff.1 hmore
        cases heq
        obtain ⟨z, fs, hz, hfs, hns⟩ := writes_of_readMembers hmembers
        obtain ⟨next, hnext, rfl⟩ := blank_of_dropSpace hr
        refine ⟨q ++ (t ++ (after ++ 44 :: (next ++ z))), (k, f) :: fs, ?_,
          .more hq hf hafter hnext hfs, by simp [memberValues?, hv, hns]⟩
        rw [hz]
        simp
      · cases hmore
      · cases hmore
    · cases hmore

theorem writes_of_readObject {s rest : Bytes} {ms : List (String × Json)}
    (h : readObject item .whole s = .ok (ms, rest)) :
    ∃ t f, 123 :: s = t ++ rest ∧ Writes (depth + 1) f t ∧ f.value? = some (.object ms) := by
  unfold readObject at h
  split at h
  · cases h
  · next hs =>
    cases h
    obtain ⟨before, hbefore, rfl⟩ := blank_of_dropSpace hs
    exact ⟨123 :: (before ++ [125]), .object [], by simp, .emptyObject hbefore, rfl⟩
  · next r hs =>
    obtain ⟨before, hbefore, rfl⟩ := blank_of_dropSpace hs
    obtain ⟨t, fs, ht, hfs, hms⟩ := writes_of_readMembers hitem h
    refine ⟨123 :: (before ++ t), .object fs, ?_, .object hbefore hfs, ?_⟩
    · rw [ht]
      simp
    · rw [Form.value?, hms]
      rfl
  · cases h

end Nested

/-- What is read is a text of its value. -/
theorem recognized_of_readValue : ∀ {depth : Nat} {s rest : Bytes} {v : Json},
    readValue depth .whole s = .ok (v, rest) → Recognized depth s v rest := by
  intro depth
  induction depth with
  | zero =>
    intro s rest v h
    unfold readValue at h
    split at h
    · cases h
    · cases h
    · cases h
    · next b r _ _ hs =>
      obtain ⟨before, hbefore, rfl⟩ := blank_of_dropSpace hs
      obtain ⟨t, f, ht, hf, hv⟩ := writes_of_readLeaf 0 h
      exact ⟨before, t, f, hbefore, by rw [ht], hf, hv⟩
  | succ depth ih =>
    intro s rest v h
    unfold readValue at h
    split at h
    · cases h
    · next r hs =>
      obtain ⟨⟨vs, u⟩, hlist, heq⟩ := map_eq_ok_iff.1 h
      cases heq
      obtain ⟨before, hbefore, rfl⟩ := blank_of_dropSpace hs
      obtain ⟨t, f, ht, hf, hv⟩ := writes_of_readList ih hlist
      exact ⟨before, t, f, hbefore, by rw [ht], hf, hv⟩
    · next r hs =>
      obtain ⟨⟨ms, u⟩, hobject, heq⟩ := map_eq_ok_iff.1 h
      cases heq
      obtain ⟨before, hbefore, rfl⟩ := blank_of_dropSpace hs
      obtain ⟨t, f, ht, hf, hv⟩ := writes_of_readObject ih hobject
      exact ⟨before, t, f, hbefore, by rw [ht], hf, hv⟩
    · next b r _ _ hs =>
      obtain ⟨before, hbefore, rfl⟩ := blank_of_dropSpace hs
      obtain ⟨t, f, ht, hf, hv⟩ := writes_of_readLeaf (depth + 1) h
      exact ⟨before, t, f, hbefore, by rw [ht], hf, hv⟩

/-- `s` is a text of `v`, with white space around it. -/
def TextOf (v : Json) (s : Bytes) : Prop := ∃ f, Document f s ∧ f.value? = some v

/-- **A value is read exactly from its texts.** -/
theorem parse_eq_ok_iff {s : Bytes} {v : Json} : parse s = .ok v ↔ TextOf v s := by
  constructor
  · intro h
    obtain ⟨⟨w, r⟩, hvalue, hend⟩ := bind_eq_ok_iff.1 (mapError_eq_ok_iff.1 h)
    simp only at hend
    split at hend
    · next hr =>
      cases hend
      obtain ⟨before, t, f, hbefore, rfl, hf, hv⟩ := recognized_of_readValue hvalue
      exact ⟨f, ⟨before, t, r, hbefore, dropSpace_eq_nil_iff.1 hr, hf, rfl⟩, hv⟩
    · cases hend
  · rintro ⟨f, hf, hv⟩
    exact parse_of_document hf hv

end Json

end SecretMount
