import SecretMount.Payload
import SecretMount.Proofs.Spelling

/-!
# Base64 text and its bytes

Only one text is read as given bytes, the one that is written for them, with or without blanks
strewn over it.

* `Base64.index?_eq_some_iff`, `Base64.indices_eq_ok_iff` : a symbol has the number for which it
  stands;
* `Base64.sextets` : the numbers of the symbols of a group of bytes. `Base64.join_sextets`,
  `Base64.sextets_of_join` : these are joined to the group, and no others are;
* `Base64.decodeLast_encode`, `Base64.encode_of_decodeLast` : the same for the texts of groups;
* `Base64.decode_eq_ok_iff` : the texts of all bytes;
* `Payload.blanks`, `Payload.compact`, `Payload.Strewn` : the blanks, a payload without them, and
  one to which some were added;
* `Payload.decodes_exactly` : what a payload of base64 text is decoded to.
-/

namespace SecretMount

namespace Base64

/-! ## Symbols -/

theorem index?_eq_some_iff {b : UInt8} {n : Nat} : index? b = some n ↔ n < 64 ∧ b = symbol n := by
  constructor
  · intro h
    have hall : ∀ k < 256, ∀ n ∈ index? (UInt8.ofNat k), n < 64 ∧ UInt8.ofNat k = symbol n := by
      decide +kernel
    have hb := hall b.toNat b.toNat_lt n
    rw [UInt8.ofNat_toNat] at hb
    exact hb h
  · rintro ⟨hn, rfl⟩
    have hall : ∀ n < 64, index? (symbol n) = some n := by decide
    exact hall n hn

/-- The symbols are those of the standard alphabet. -/
example : (List.range 64).map symbol =
    Text.encode "ABCDEFGHIJKLMNOPQRSTUVWXYZabcdefghijklmnopqrstuvwxyz0123456789+/" := by decide

theorem symbol_ne_pad {n : Nat} (h : n < 64) : symbol n ≠ pad := by
  intro hpad
  have hnone : index? pad = none := by decide
  have hsome := index?_eq_some_iff.2 ⟨h, rfl⟩
  rw [hpad, hnone] at hsome
  cases hsome

theorem indices_eq_ok_iff {offset : Nat} {group : Bytes} {ns : List Nat} :
    indices offset group = .ok ns ↔ (∀ n ∈ ns, n < 64) ∧ group = ns.map symbol := by
  induction group generalizing offset ns with
  | nil => cases ns <;> simp [indices]
  | cons b r ih =>
    unfold indices
    cases hb : index? b with
    | none =>
      simp only [reduceCtorEq, false_iff, not_and]
      intro hns hmap
      cases ns with
      | nil => cases hmap
      | cons n ns =>
        obtain ⟨rfl, -⟩ := List.cons.inj hmap
        have hsome := index?_eq_some_iff.2 ⟨hns n List.mem_cons_self, rfl⟩
        rw [hb] at hsome
        cases hsome
    | some n =>
      obtain ⟨hn, rfl⟩ := index?_eq_some_iff.1 hb
      simp only [map_eq_ok_iff, ih]
      constructor
      · rintro ⟨ns, ⟨hns, rfl⟩, rfl⟩
        exact ⟨List.forall_mem_cons.2 ⟨hn, hns⟩, rfl⟩
      · rintro ⟨hns, hmap⟩
        cases ns with
        | nil => cases hmap
        | cons m ms =>
          obtain ⟨hm, hms⟩ := List.forall_mem_cons.1 hns
          obtain ⟨hsymbol, hr⟩ := List.cons.inj hmap
          have hnumber := index?_eq_some_iff.2 ⟨hm, hsymbol⟩
          rw [hb] at hnumber
          cases hnumber
          exact ⟨ms, ⟨hms, hr⟩, rfl⟩

/-! ## Groups -/

/-- The numbers of the symbols of one, two or three bytes. -/
def sextets : Bytes → List Nat
  | [a] =>
    let n := a.toNat * 16
    [n / 64, n % 64]
  | [a, b] =>
    let n := (a.toNat * 256 + b.toNat) * 4
    [n / 4096, n / 64 % 64, n % 64]
  | [a, b, c] =>
    let n := (a.toNat * 256 + b.toNat) * 256 + c.toNat
    [n / 262144, n / 4096 % 64, n / 64 % 64, n % 64]
  | _ => []

/-- One to three bytes, which are written together. -/
def IsGroup (bs : Bytes) : Prop := bs ≠ [] ∧ bs.length ≤ 3

theorem encode_group {bs : Bytes} (h : IsGroup bs) :
    encode bs = (sextets bs).map symbol ++ List.replicate (3 - bs.length) pad := by
  match bs, h with
  | [a], _ => rfl
  | [a, b], _ => rfl
  | [a, b, c], _ => rfl

theorem length_sextets {bs : Bytes} (h : IsGroup bs) : (sextets bs).length = bs.length + 1 := by
  match bs, h with
  | [a], _ => rfl
  | [a, b], _ => rfl
  | [a, b, c], _ => rfl

theorem sextets_lt (bs : Bytes) : ∀ n ∈ sextets bs, n < 64 := by
  unfold sextets
  split
  · next a =>
    have := a.toNat_lt
    simp only [List.forall_mem_cons, List.not_mem_nil, false_implies, implies_true, and_true]
    omega
  · next a b =>
    have := a.toNat_lt
    have := b.toNat_lt
    simp only [List.forall_mem_cons, List.not_mem_nil, false_implies, implies_true, and_true]
    omega
  · next a b c =>
    have := a.toNat_lt
    have := b.toNat_lt
    have := c.toNat_lt
    simp only [List.forall_mem_cons, List.not_mem_nil, false_implies, implies_true, and_true]
    omega
  · simp

theorem isGroup_of_sextets {bs : Bytes} (h : sextets bs ≠ []) : IsGroup bs := by
  unfold sextets at h
  split at h
  · exact ⟨by simp, by simp⟩
  · exact ⟨by simp, by simp⟩
  · exact ⟨by simp, by simp⟩
  · exact absurd rfl h

theorem join_sextets (last : UInt8) (offset : Nat) {bs : Bytes} (h : IsGroup bs) :
    join last offset (sextets bs) = .ok bs := by
  match bs, h with
  | [a], _ =>
    have := a.toNat_lt
    simp only [sextets, join]
    rw [if_pos (by omega)]
    simp only [Except.ok.injEq, List.cons.injEq, and_true, ← UInt8.toNat_inj, UInt8.toNat_ofNat']
    omega
  | [a, b], _ =>
    have := a.toNat_lt
    have := b.toNat_lt
    simp only [sextets, join]
    rw [if_pos (by omega)]
    simp only [Except.ok.injEq, List.cons.injEq, and_true, ← UInt8.toNat_inj, UInt8.toNat_ofNat']
    omega
  | [a, b, c], _ =>
    have := a.toNat_lt
    have := b.toNat_lt
    have := c.toNat_lt
    simp only [sextets, join, Except.ok.injEq, List.cons.injEq, and_true, ← UInt8.toNat_inj,
      UInt8.toNat_ofNat']
    omega

/-- Numbers are only joined when the last of them has no bits that belong to no byte. -/
theorem sextets_of_join {last : UInt8} {offset : Nat} {ns : List Nat} {bs : Bytes}
    (hns : ∀ n ∈ ns, n < 64) (hlow : 2 ≤ ns.length) (hhigh : ns.length ≤ 4)
    (h : join last offset ns = .ok bs) : sextets bs = ns := by
  match ns, hlow, hhigh with
  | [i, j], _, _ =>
    simp only [List.forall_mem_cons] at hns
    simp only [join] at h
    split at h
    · cases h
      simp only [sextets, UInt8.toNat_ofNat', List.cons.injEq, and_true]
      omega
    · cases h
  | [i, j, k], _, _ =>
    simp only [List.forall_mem_cons] at hns
    simp only [join] at h
    split at h
    · cases h
      simp only [sextets, UInt8.toNat_ofNat', List.cons.injEq, and_true]
      omega
    · cases h
  | [i, j, k, l], _, _ =>
    simp only [List.forall_mem_cons] at hns
    simp only [join] at h
    cases h
    simp only [sextets, UInt8.toNat_ofNat', List.cons.injEq, and_true]
    omega

theorem takeWhile_symbols {ns : List Nat} (h : ∀ n ∈ ns, n < 64) (k : Nat) :
    (ns.map symbol ++ List.replicate k pad).takeWhile (· != pad) = ns.map symbol ∧
      (ns.map symbol ++ List.replicate k pad).dropWhile (· != pad) = List.replicate k pad := by
  have hsymbols : ∀ b ∈ ns.map symbol, (b != pad) = true := by
    intro b hb
    obtain ⟨n, hn, rfl⟩ := List.mem_map.1 hb
    exact bne_iff_ne.2 (symbol_ne_pad (h n hn))
  rw [List.takeWhile_append_of_pos hsymbols, List.dropWhile_append_of_pos hsymbols]
  cases k with
  | zero => simp
  | succ k => simp [List.replicate_succ]

/-! ## Texts -/

theorem decodeLast_encode (offset : Nat) {bs : Bytes} (h : IsGroup bs) :
    decodeLast offset (encode bs) = .ok bs := by
  obtain ⟨hsymbols, hpads⟩ := takeWhile_symbols (sextets_lt bs) (3 - bs.length)
  have hnumbers : indices offset ((sextets bs).map symbol) = .ok (sextets bs) :=
    indices_eq_ok_iff.2 ⟨sextets_lt bs, rfl⟩
  have hlen := length_sextets h
  obtain ⟨hne, hle⟩ := h
  have hpos := List.length_pos_iff.2 hne
  have hcanonical : ¬ (List.replicate (3 - bs.length) pad ≠ [] ∧
      ((sextets bs).length < 2 ∨ (List.replicate (3 - bs.length) pad).any (· != pad) = true)) := by
    rintro ⟨-, hfew | hother⟩
    · omega
    · simp at hother
  simp only [decodeLast, encode_group ⟨hne, hle⟩, hsymbols, hpads, hnumbers, List.length_map,
    List.length_replicate, bind, Except.bind]
  rw [if_neg hcanonical, if_neg (by omega), if_neg (by omega)]
  exact join_sextets _ _ ⟨hne, hle⟩

/-- A last group is the text of one, two or three bytes. -/
theorem encode_of_decodeLast {offset : Nat} {group bs : Bytes} (hlen : group.length ≤ 4)
    (h : decodeLast offset group = .ok bs) : group = encode bs := by
  have hsplit : group = group.takeWhile (· != pad) ++ group.dropWhile (· != pad) :=
    List.takeWhile_append_dropWhile.symm
  unfold decodeLast at h
  generalize group.takeWhile (· != pad) = symbols at *
  generalize group.dropWhile (· != pad) = pads at *
  obtain ⟨ns, hns, h⟩ := bind_eq_ok_iff.1 h
  obtain ⟨hlt, rfl⟩ := indices_eq_ok_iff.1 hns
  simp only [List.length_map] at h
  split at h
  · cases h
  · next hcanonical =>
    split at h
    · cases h
    · next hmany =>
      split at h
      · cases h
      · next hfull =>
        have htotal : group.length = ns.length + pads.length := by
          rw [hsplit, List.length_append, List.length_map]
        have hpads : pads = List.replicate pads.length pad := by
          refine List.eq_replicate_iff.2 ⟨rfl, fun b hb => Decidable.byContradiction fun hne => ?_⟩
          have hother : (pads.any (· != pad)) = true :=
            List.any_eq_true.2 ⟨b, hb, bne_iff_ne.2 hne⟩
          exact hcanonical ⟨List.ne_nil_of_mem hb, Or.inr hother⟩
        obtain rfl := sextets_of_join hlt (by omega) (by omega) h
        have hgroup : IsGroup bs := isGroup_of_sextets (List.ne_nil_of_length_pos (by omega))
        have hsextets := length_sextets hgroup
        have hcount : pads.length = 3 - bs.length := by omega
        rw [hsplit, hpads, hcount, encode_group hgroup]

theorem length_encode (bs : Bytes) : (encode bs).length = (bs.length + 2) / 3 * 4 := by
  induction bs using encode.induct with
  | case1 => rfl
  | case2 a => simp [encode]
  | case3 a b => simp [encode]
  | case4 a b c r ih =>
    simp only [encode, List.length_cons, ih]
    omega

theorem encode_ne_nil {bs : Bytes} (h : bs ≠ []) : encode bs ≠ [] := by
  have hpos := List.length_pos_iff.2 h
  have hlength := length_encode bs
  exact List.ne_nil_of_length_pos (by omega)

/-- A full group is decoded before what is behind it. -/
theorem decodeGroups_full (offset : Nat) (a b c : UInt8) {text : Bytes} (hne : text ≠ []) :
    decodeGroups offset ((sextets [a, b, c]).map symbol ++ text) =
      (decodeGroups (offset + 4) text).map ([a, b, c] ++ ·) := by
  obtain ⟨s, r, rfl⟩ := List.exists_cons_of_ne_nil hne
  have hnumbers : indices offset ((sextets [a, b, c]).map symbol) = .ok (sextets [a, b, c]) :=
    indices_eq_ok_iff.2 ⟨sextets_lt [a, b, c], rfl⟩
  have hgroup : IsGroup [a, b, c] := ⟨by simp, by simp⟩
  have hjoin := fun last offset => join_sextets last offset hgroup
  simp only [sextets, List.map_cons, List.map_nil, List.cons_append, List.nil_append] at *
  simp only [decodeGroups, hnumbers, hjoin, bind, Except.bind]
  cases decodeGroups (offset + 4) (s :: r) with
  | error fault => rfl
  | ok bs => rfl

theorem decodeGroups_encode (offset : Nat) (bs : Bytes) :
    decodeGroups offset (encode bs) = .ok bs := by
  induction bs using encode.induct generalizing offset with
  | case1 => rfl
  | case2 a =>
    have hgroup : IsGroup [a] := ⟨by simp, by simp⟩
    exact decodeLast_encode offset hgroup
  | case3 a b =>
    have hgroup : IsGroup [a, b] := ⟨by simp, by simp⟩
    exact decodeLast_encode offset hgroup
  | case4 a b c r ih =>
    cases r with
    | nil =>
      have hgroup : IsGroup [a, b, c] := ⟨by simp, by simp⟩
      exact decodeLast_encode offset hgroup
    | cons x r =>
      have hfull := decodeGroups_full offset a b c (encode_ne_nil (List.cons_ne_nil x r))
      rw [ih] at hfull
      exact hfull

theorem encode_of_decodeGroups {offset : Nat} {text bs : Bytes}
    (h : decodeGroups offset text = .ok bs) : text = encode bs := by
  induction offset, text using decodeGroups.induct generalizing bs with
  | case1 =>
    cases h
    rfl
  | case2 offset a b c d e r ih =>
    obtain ⟨ns, hns, h⟩ := bind_eq_ok_iff.1 h
    obtain ⟨first, hfirst, h⟩ := bind_eq_ok_iff.1 h
    obtain ⟨others, hothers, h⟩ := bind_eq_ok_iff.1 h
    cases h
    obtain ⟨hlt, hsymbols⟩ := indices_eq_ok_iff.1 hns
    have hfour : ns.length = 4 := by
      have := congrArg List.length hsymbols
      simpa using this.symm
    obtain rfl := sextets_of_join hlt (by omega) (by omega) hfirst
    have hpos : 0 < (sextets first).length := by omega
    have hgroup := isGroup_of_sextets (List.ne_nil_of_length_pos hpos)
    have hlength := length_sextets hgroup
    match first, show first.length = 3 by omega with
    | [x, y, z], _ =>
      have hsplit : a :: b :: c :: d :: e :: r = [a, b, c, d] ++ (e :: r) := rfl
      rw [hsplit, hsymbols, ih hothers]
      rfl
  | case3 offset group hne hlong =>
    have hlen : group.length ≤ 4 := by
      refine Nat.le_of_not_lt fun hlt => ?_
      match group, hlt with
      | a :: b :: c :: d :: e :: r, _ => exact hlong a b c d e r rfl
    have hlast : decodeGroups offset group = decodeLast offset group := by
      unfold decodeGroups
      split
      · exact absurd rfl hne
      · exact (hlong _ _ _ _ _ _ rfl).elim
      · rfl
    rw [hlast] at h
    exact encode_of_decodeLast hlen h

/-- **A text is decoded to the bytes for which it is written, and no other text is decoded.** -/
theorem decode_eq_ok_iff {text bs : Bytes} : decode text = .ok bs ↔ text = encode bs := by
  simp only [decode]
  constructor
  · intro h
    split at h
    · cases h
    · exact encode_of_decodeGroups h
  · rintro rfl
    have hlength := length_encode bs
    rw [if_neg (by omega)]
    exact decodeGroups_encode 0 bs

/-- Texts are made up of symbols and padding. -/
theorem mem_encode {bs : Bytes} {b : UInt8} (h : b ∈ encode bs) :
    (∃ n < 64, b = symbol n) ∨ b = pad := by
  have hsymbols : ∀ group : Bytes, b ∈ (sextets group).map symbol → ∃ n < 64, b = symbol n := by
    intro group hb
    obtain ⟨n, hn, rfl⟩ := List.mem_map.1 hb
    exact ⟨n, sextets_lt group n hn, rfl⟩
  have hgroups : ∀ group : Bytes, IsGroup group → b ∈ encode group →
      (∃ n < 64, b = symbol n) ∨ b = pad := by
    intro group hgroup hb
    rw [encode_group hgroup] at hb
    rcases List.mem_append.1 hb with hb | hb
    · exact Or.inl (hsymbols group hb)
    · exact Or.inr (List.eq_of_mem_replicate hb)
  induction bs using encode.induct with
  | case1 => cases h
  | case2 a => exact hgroups [a] ⟨by simp, by simp⟩ h
  | case3 a b => exact hgroups [a, b] ⟨by simp, by simp⟩ h
  | case4 a b c r ih =>
    have hsplit : encode (a :: b :: c :: r) = (sextets [a, b, c]).map symbol ++ encode r := rfl
    rw [hsplit] at h
    rcases List.mem_append.1 h with h | h
    · exact Or.inl (hsymbols [a, b, c] h)
    · exact ih h

end Base64

/-! ## Payloads -/

namespace Payload

/-- What may be strewn over a payload: tab, line feed, form feed, carriage return and space. -/
def blanks : Bytes := [0x09, 0x0A, 0x0C, 0x0D, 0x20]

theorem isAsciiBlank_iff {b : UInt8} : Text.isAsciiBlank b = true ↔ b ∈ blanks := by
  simp [Text.isAsciiBlank, blanks, or_assoc]

/-- A payload without the blanks in it. -/
def compact (payload : Bytes) : Bytes := payload.filter (· ∉ blanks)

theorem filter_isAsciiBlank (payload : Bytes) :
    payload.filter (!Text.isAsciiBlank ·) = compact payload := by
  refine List.filter_congr fun b _ => ?_
  rw [Bool.eq_iff_iff, Bool.not_eq_true', ← Bool.not_eq_true, isAsciiBlank_iff, decide_eq_true_eq]

/-- `t` is `s` with blanks put anywhere. -/
inductive Strewn : Bytes → Bytes → Prop
  | nil : Strewn [] []
  | byte {s t : Bytes} (b : UInt8) (h : Strewn s t) : Strewn (b :: s) (b :: t)
  | blank {s t : Bytes} {b : UInt8} (hb : b ∈ blanks) (h : Strewn s t) : Strewn s (b :: t)

theorem Strewn.compact {s t : Bytes} (h : Strewn s t) :
    Payload.compact t = Payload.compact s := by
  induction h with
  | nil => rfl
  | byte b h ih => simp only [Payload.compact, List.filter_cons] at ih ⊢; rw [ih]
  | blank hb h ih => simpa [Payload.compact, hb] using ih

/-- Symbols and padding are no blanks. -/
theorem compact_encode (bs : Bytes) : compact (Base64.encode bs) = Base64.encode bs := by
  have hsymbol : ∀ n < 64, Base64.symbol n ∉ blanks := by decide
  refine List.filter_eq_self.2 fun b hb => ?_
  rw [decide_eq_true_eq]
  rcases Base64.mem_encode hb with ⟨n, hn, rfl⟩ | rfl
  · exact hsymbol n hn
  · decide

theorem decodeBase64_eq_ok_iff {payload bs : Bytes} :
    decodeBase64 payload = .ok bs ↔ compact payload = Base64.encode bs := by
  rw [decodeBase64, mapError_eq_ok_iff, Base64.decode_eq_ok_iff, filter_isAsciiBlank]

/-- **Which payloads of base64 text are decoded, and to what.** A payload is decoded to the bytes
whose text it is without its blanks. Any other payload is refused as base64 text, as one is with a
byte that is no blank, no symbol and no padding. The text of some bytes with any blanks in it is
transformed as these bytes would be. -/
theorem decodes_exactly :
    (∀ payload bs, decodeBase64 payload = .ok bs ↔ compact payload = Base64.encode bs) ∧
    (∀ payload, (∀ bs, compact payload ≠ Base64.encode bs) →
      ∃ fault, decodeBase64 payload = .error (.base64 fault)) ∧
    (∀ payload b, b ∈ payload → b ∉ blanks → (∀ n < 64, b ≠ Base64.symbol n) → b ≠ Base64.pad →
      ∃ fault, decodeBase64 payload = .error (.base64 fault)) ∧
    ∀ bs payload extraction, Strewn (Base64.encode bs) payload →
      transform payload (some .base64) extraction = transform bs none extraction := by
  have hrefused : ∀ payload, (∀ bs, compact payload ≠ Base64.encode bs) →
      ∃ fault, decodeBase64 payload = .error (.base64 fault) := by
    intro payload hnone
    rw [decodeBase64, filter_isAsciiBlank]
    cases hdecode : Base64.decode (compact payload) with
    | error fault => exact ⟨fault, rfl⟩
    | ok bs => exact absurd (Base64.decode_eq_ok_iff.1 hdecode) (hnone bs)
  refine ⟨fun payload bs => decodeBase64_eq_ok_iff, hrefused,
    fun payload b hb hblank hsymbol hpad => hrefused payload fun bs hencode => ?_,
    fun bs payload extraction hstrewn => ?_⟩
  · have hkept : b ∈ compact payload := List.mem_filter.2 ⟨hb, decide_eq_true hblank⟩
    rw [hencode] at hkept
    rcases Base64.mem_encode hkept with ⟨n, hn, rfl⟩ | hpadding
    · exact hsymbol n hn rfl
    · exact hpad hpadding
  · have hdecode : decodeBase64 payload = .ok bs :=
      decodeBase64_eq_ok_iff.2 (hstrewn.compact.trans (compact_encode bs))
    simp only [transform, hdecode]
    rfl

/-- The text of two bytes with blanks even in its padding, a text with one `=` too few, and one with
a vertical tab. -/
theorem decodes_exactly_strewn :
    let bs : Bytes := [72, 105]
    let payload : Bytes := [32, 83, 71, 9, 107, 13, 10, 61, 10]
    let short : Bytes := [83, 65, 61]
    let tab : Bytes := 0x0B :: Base64.encode bs
    Strewn (Base64.encode bs) payload ∧
      transform payload (some .base64) none = transform bs none none ∧
      (∀ bs, compact short ≠ Base64.encode bs) ∧
      (∃ fault, decodeBase64 short = .error (.base64 fault)) ∧
      0x0B ∉ blanks ∧ (∀ n < 64, 0x0B ≠ Base64.symbol n) ∧
      ∃ fault, decodeBase64 tab = .error (.base64 fault) := by
  intro bs payload short tab
  obtain ⟨-, hrefused, hother, hstrewn⟩ := decodes_exactly
  have hshort : ∀ bs, compact short ≠ Base64.encode bs := by
    intro bs hencode
    have hlength := congrArg List.length hencode
    have hthree : (compact short).length = 3 := by decide
    rw [Base64.length_encode, hthree] at hlength
    omega
  have hencode : Base64.encode bs = [83, 71, 107, 61] := by decide
  have hpayload : Strewn (Base64.encode bs) payload := by
    rw [hencode]
    exact .blank (by decide) (.byte 83 (.byte 71 (.blank (by decide) (.byte 107 (.blank (by decide)
      (.blank (by decide) (.byte 61 (.blank (by decide) .nil))))))))
  exact ⟨hpayload, hstrewn bs payload none hpayload, hshort, hrefused short hshort, by decide,
    by decide, hother tab 0x0B List.mem_cons_self (by decide) (by decide) (by decide)⟩

end Payload

end SecretMount
