import Mathlib.Data.List.TakeWhile
import SecretMount.Json.Parse
import SecretMount.Proofs.Spelling

/-!
# Integers in JSON texts

A text is read as an integer exactly when it is the decimal text of this integer, of 64 bits, with
white space around it: there is no other spelling.

* `Json.digitByte`, `Json.NoDigit` : the bytes of digits, and bytes that go on without one;
* `Json.takeDigits_spec`, `Json.takeDigits_append` : digits are taken as far as they go;
* `Json.Canonical`, `Json.decimal` : digits without a zero in front, and the number that they make
  up, which has them as its text (`Json.encode_decimal`);
* `Json.Ends` : what may follow an integer;
* `NumberToken.read_integer`, `NumberToken.integer_of_read` : what is read as a token without a
  fraction and an exponent, and `NumberToken.encode_of_int?` : its bytes are the text of an integer;
* `Json.parse_eq_int_iff` : the texts that are.
-/

namespace SecretMount.Json

/-! ## Digits -/

/-- The byte of a decimal digit. -/
def digitByte (d : Nat) : UInt8 := UInt8.ofNat (48 + d)

theorem digit?_eq_some_iff {b : UInt8} {d : Nat} :
    digit? b = some d ↔ d < 10 ∧ b = digitByte d := by
  have h48 : (48 : UInt8).toNat = 48 := rfl
  have h57 : (57 : UInt8).toNat = 57 := rfl
  unfold digit? digitByte
  simp only [← UInt8.toNat_inj, UInt8.toNat_ofNat', UInt8.le_iff_toNat_le, h48, h57]
  split
  · rw [Option.some.injEq]
    omega
  · simp only [reduceCtorEq, false_iff]
    omega

theorem digit?_digitByte {d : Nat} (h : d < 10) : digit? (digitByte d) = some d :=
  digit?_eq_some_iff.2 ⟨h, rfl⟩

/-- `s` does not go on with a digit. -/
def NoDigit (s : Bytes) : Prop := ∀ b ∈ s.head?, digit? b = none

theorem takeDigits_spec : ∀ s : Bytes,
    s = (takeDigits s).1.map digitByte ++ (takeDigits s).2 ∧
      (∀ d ∈ (takeDigits s).1, d < 10) ∧ NoDigit (takeDigits s).2
  | [] => ⟨rfl, by simp [takeDigits], by simp [takeDigits, NoDigit]⟩
  | b :: r => by
    obtain ⟨hr, hall, hrest⟩ := takeDigits_spec r
    unfold takeDigits
    cases hb : digit? b with
    | none => exact ⟨rfl, by simp, by simpa [NoDigit] using hb⟩
    | some d =>
      obtain ⟨hlt, rfl⟩ := digit?_eq_some_iff.1 hb
      exact ⟨congrArg (digitByte d :: ·) hr, List.forall_mem_cons.2 ⟨hlt, hall⟩, hrest⟩

theorem takeDigits_append {ds : List Nat} {r : Bytes} (hds : ∀ d ∈ ds, d < 10) (hr : NoDigit r) :
    takeDigits (ds.map digitByte ++ r) = (ds, r) := by
  induction ds with
  | nil =>
    cases r with
    | nil => rfl
    | cons b r =>
      have hb : digit? b = none := hr b rfl
      simp only [List.map_nil, List.nil_append, takeDigits, hb]
  | cons d ds ih =>
    obtain ⟨hd, hds⟩ := List.forall_mem_cons.1 hds
    simp only [List.map_cons, List.cons_append, takeDigits, digit?_digitByte hd, ih hds]

/-! ## Decimals -/

/-- Digits that a number is written with: a zero only stands in front when it stands alone. -/
structure Canonical (ds : List Nat) : Prop where
  ne_nil : ds ≠ []
  lt_ten : ∀ d ∈ ds, d < 10
  zero_alone : ds.head? = some 0 → ds = [0]

/-- The number that has the digits `ds` behind those of `n`. -/
def decimalFrom (n : Nat) (ds : List Nat) : Nat := ds.foldl (fun n d => n * 10 + d) n

/-- The number that digits make up. -/
def decimal (ds : List Nat) : Nat := decimalFrom 0 ds

theorem le_decimalFrom (n : Nat) (ds : List Nat) : n ≤ decimalFrom n ds := by
  induction ds generalizing n with
  | nil => exact Nat.le_refl n
  | cons d ds ih =>
    have := ih (n * 10 + d)
    rw [decimalFrom, List.foldl_cons]
    rw [decimalFrom] at this
    omega

theorem toDigits_decimalFrom {n : Nat} {ds : List Nat} (hn : 0 < n) (hds : ∀ d ∈ ds, d < 10) :
    Nat.toDigits 10 (decimalFrom n ds) = Nat.toDigits 10 n ++ ds.map Nat.digitChar := by
  induction ds generalizing n with
  | nil => exact (List.append_nil _).symm
  | cons d ds ih =>
    obtain ⟨hd, hds⟩ := List.forall_mem_cons.1 hds
    rw [decimalFrom, List.foldl_cons, ← decimalFrom, ih (by omega) hds,
      Numeral.toDigits_concat hn hd, List.append_assoc, List.map_cons, List.singleton_append]

/-- The digits of a number are those that make it up. -/
theorem toDigits_decimal {ds : List Nat} (h : Canonical ds) :
    Nat.toDigits 10 (decimal ds) = ds.map Nat.digitChar := by
  obtain ⟨hne, hds, hzero⟩ := h
  cases ds with
  | nil => exact absurd rfl hne
  | cons d ds =>
    obtain ⟨hd, hds⟩ := List.forall_mem_cons.1 hds
    by_cases hd0 : d = 0
    · subst hd0
      obtain rfl : ds = [] := (List.cons.inj (hzero rfl)).2
      rfl
    · have hfirst : decimal (d :: ds) = decimalFrom d ds := by
        rw [decimal, decimalFrom, List.foldl_cons, Nat.zero_mul, Nat.zero_add, ← decimalFrom]
      rw [hfirst, toDigits_decimalFrom (by omega) hds, Nat.toDigits_of_lt_base hd, List.map_cons,
        List.singleton_append]

/-- Every number is made up of digits. -/
theorem exists_canonical (n : Nat) : ∃ ds, Canonical ds ∧ decimal ds = n := by
  induction n using Nat.strongRecOn with
  | ind n ih =>
    by_cases hlt : n < 10
    · refine ⟨[n], ⟨by simp, by simpa using hlt, by simp⟩, ?_⟩
      simp [decimal, decimalFrom]
    · obtain ⟨ds, ⟨hne, hds, hzero⟩, hvalue⟩ := ih (n / 10) (by omega)
      refine ⟨ds ++ [n % 10], ⟨by simp, ?_, fun hhead => ?_⟩, ?_⟩
      · intro d hd
        rcases List.mem_append.1 hd with hd | hd
        · exact hds d hd
        · rw [List.mem_singleton.1 hd]
          omega
      · -- the digits in front make up a positive number, so they do not start with a zero
        have hfront : (ds ++ [n % 10]).head? = ds.head? := by
          cases ds with
          | nil => exact absurd rfl hne
          | cons d ds => rfl
        rw [hzero (hfront ▸ hhead)] at hvalue
        have : n / 10 = 0 := hvalue.symm
        omega
      · rw [decimal, decimalFrom, List.foldl_append, List.foldl_cons, List.foldl_nil]
        rw [decimal, decimalFrom] at hvalue
        rw [hvalue]
        omega

/-! ## Texts of integers -/

theorem utf8EncodeChar_digitChar {d : Nat} (h : d < 10) :
    String.utf8EncodeChar d.digitChar = [digitByte d] := by
  have hall : ∀ d < 10, String.utf8EncodeChar (Nat.digitChar d) = [digitByte d] := by decide
  exact hall d h

theorem encode_digits {ds : List Nat} (h : ∀ d ∈ ds, d < 10) :
    (ds.map Nat.digitChar).flatMap String.utf8EncodeChar = ds.map digitByte := by
  induction ds with
  | nil => rfl
  | cons d ds ih =>
    obtain ⟨hd, hds⟩ := List.forall_mem_cons.1 h
    rw [List.map_cons, List.flatMap_cons, utf8EncodeChar_digitChar hd, ih hds]
    rfl

/-- The text of a number is made up of its digits. -/
theorem encode_decimal {ds : List Nat} (h : Canonical ds) :
    Text.encode (toString (decimal ds)) = ds.map digitByte := by
  rw [Text.encode, Nat.toString_eq_ofList_toDigits, String.toList_ofList, toDigits_decimal h,
    encode_digits h.lt_ten]

theorem encode_ofNat (n : Nat) : Text.encode (toString (n : Int)) = Text.encode (toString n) := rfl

theorem encode_neg {n : Nat} (h : 0 < n) :
    Text.encode (toString (-(n : Int))) = 45 :: Text.encode (toString n) := by
  cases n with
  | zero => omega
  | succ n =>
    have htext : toString (-((n + 1 : Nat) : Int)) = "-" ++ toString (n + 1) := rfl
    rw [htext, Text.encode, Text.encode, String.toList_append, List.flatMap_append]
    rfl

/-! ## Tokens -/

/-- What may follow an integer: no digit, and nothing that makes it another number. -/
def Ends (s : Bytes) : Prop := ∀ b ∈ s.head?, digit? b = none ∧ b ≠ 46 ∧ b ≠ 101 ∧ b ≠ 69

theorem Ends.noDigit {s : Bytes} (h : Ends s) : NoDigit s := fun b hb => (h b hb).1

theorem readWhole_of_canonical {ds : List Nat} {r : Bytes} (hds : Canonical ds) (hr : NoDigit r) :
    readWhole (ds.map digitByte ++ r) = .ok (ds, r) := by
  obtain ⟨hne, hlt, hzero⟩ := hds
  cases ds with
  | nil => exact absurd rfl hne
  | cons d ds =>
    obtain ⟨hd, hds⟩ := List.forall_mem_cons.1 hlt
    rw [List.map_cons, List.cons_append, readWhole, digit?_digitByte hd]
    cases d with
    | zero =>
      obtain rfl : ds = [] := (List.cons.inj (hzero rfl)).2
      have htake : takeDigits ([].map digitByte ++ r) = ([], r) := takeDigits_append (by simp) hr
      rw [List.map_nil, List.nil_append] at htake ⊢
      simp only [htake]
    | succ d => simp only [takeDigits_append hds hr]

theorem canonical_of_readWhole {ds : List Nat} {s r : Bytes} (h : readWhole s = .ok (ds, r)) :
    Canonical ds ∧ s = ds.map digitByte ++ r := by
  unfold readWhole at h
  split at h
  · cases h
  · next b t =>
    obtain ⟨ht, hall, -⟩ := takeDigits_spec t
    split at h
    · cases h
    · next hb =>
      obtain ⟨-, rfl⟩ := digit?_eq_some_iff.1 hb
      split at h
      · cases h
        exact ⟨⟨by simp, by simp, by simp⟩, rfl⟩
      · cases h
    · next d hne hb =>
      obtain ⟨hd, rfl⟩ := digit?_eq_some_iff.1 hb
      cases h
      refine ⟨⟨by simp, List.forall_mem_cons.2 ⟨hd, hall⟩, fun hhead => ?_⟩, congrArg (_ :: ·) ht⟩
      exact absurd (Option.some.inj hhead) hne

theorem readFraction_of_ends {s : Bytes} (h : Ends s) : readFraction s = .ok ([], s) := by
  unfold readFraction
  split
  · next r => exact absurd rfl (h 46 rfl).2.1
  · rfl

theorem eq_of_readFraction {s r : Bytes} (h : readFraction s = .ok ([], r)) : s = r := by
  unfold readFraction at h
  split at h
  · split at h
    · cases h
    · cases h
    · next hne _ =>
      cases h
      exact (hne rfl).elim
  · cases h
    rfl

theorem readExponent_of_ends {s : Bytes} (h : Ends s) : readExponent s = .ok (none, s) := by
  unfold readExponent
  split
  · rfl
  · next b r =>
    obtain ⟨-, -, hlower, hupper⟩ := h b rfl
    simp only [hlower, hupper, or_self, if_false]

theorem eq_of_readExponent {s r : Bytes} (h : readExponent s = .ok (none, r)) : s = r := by
  unfold readExponent at h
  split at h
  · cases h
    rfl
  · split at h
    · simp only at h
      split at h
      · cases h
      · split at h
        · cases h
        · cases h
    · cases h
      rfl

namespace NumberToken

/-- How the token of an integer is written. -/
def bytes (t : NumberToken) : Bytes := (if t.negative then [45] else []) ++ t.whole.map digitByte

theorem read_integer {negative : Bool} {ds : List Nat} {r : Bytes} (hds : Canonical ds)
    (hr : Ends r) :
    read negative (ds.map digitByte ++ r) = .ok (⟨negative, ds, [], none⟩, r) := by
  simp only [read, readWhole_of_canonical hds hr.noDigit, readFraction_of_ends hr,
    readExponent_of_ends hr, bind, Except.bind, pure, Except.pure]

theorem integer_of_read {negative : Bool} {s r : Bytes} {t : NumberToken}
    (h : read negative s = .ok (t, r)) (hfraction : t.fraction = [])
    (hexponent : t.exponent = none) :
    t.negative = negative ∧ Canonical t.whole ∧ s = t.whole.map digitByte ++ r := by
  obtain ⟨⟨whole, s₁⟩, hwhole, h⟩ := bind_eq_ok_iff.1 h
  obtain ⟨⟨fraction, s₂⟩, hpoint, h⟩ := bind_eq_ok_iff.1 h
  obtain ⟨⟨exponent, s₃⟩, hletter, h⟩ := bind_eq_ok_iff.1 h
  cases h
  simp only at hfraction hexponent
  subst hfraction hexponent
  obtain ⟨hcanonical, hs⟩ := canonical_of_readWhole hwhole
  rw [eq_of_readFraction hpoint, eq_of_readExponent hletter] at hs
  exact ⟨rfl, hcanonical, hs⟩

end NumberToken

/-! ## Values of tokens -/

theorem gather_of_le {n : Nat} {ds : List Nat} (h : decimalFrom n ds ≤ Numeral.max64) :
    gather n ds = (decimalFrom n ds, ds.length) := by
  induction ds generalizing n with
  | nil => rfl
  | cons d ds ih =>
    have hnext : decimalFrom n (d :: ds) = decimalFrom (n * 10 + d) ds := rfl
    rw [hnext] at h ⊢
    have hfits : ¬ Numeral.max64 < n * 10 + d :=
      Nat.not_lt.2 (Nat.le_trans (le_decimalFrom _ ds) h)
    simp only [gather, if_neg hfits, ih h, List.length_cons]

theorem le_of_gather {n : Nat} {ds : List Nat} (hn : n ≤ Numeral.max64)
    (h : (gather n ds).2 = ds.length) : decimalFrom n ds ≤ Numeral.max64 := by
  induction ds generalizing n with
  | nil => exact hn
  | cons d ds ih =>
    unfold gather at h
    split at h
    · cases h
    · next hfits => exact ih (Nat.not_lt.1 hfits) (Nat.succ.inj h)

/-- The integers that a number is kept as. -/
def Fits (i : Int) : Prop := -0x8000000000000000 ≤ i ∧ i ≤ Numeral.max64

namespace NumberToken

theorem int?_eq_some_iff {t : NumberToken} {i : Int} :
    t.int? = some i ↔ t.fraction = [] ∧ t.exponent = none ∧ decimal t.whole ≤ Numeral.max64 ∧
      (t.negative = false ∧ i = decimal t.whole ∨
        t.negative = true ∧ 0 < decimal t.whole ∧ decimal t.whole ≤ 0x8000000000000000 ∧
          i = -(decimal t.whole : Int)) := by
  have hgather : (gather 0 t.whole).2 = t.whole.length ↔ decimal t.whole ≤ Numeral.max64 := by
    constructor
    · exact le_of_gather (Nat.zero_le _)
    · intro h
      rw [gather_of_le h]
  unfold int?
  by_cases hfits : decimal t.whole ≤ Numeral.max64
  · have hvalue : gather 0 t.whole = (decimal t.whole, t.whole.length) := gather_of_le hfits
    simp only [hvalue, hfits, true_and]
    cases hexponent : t.exponent with
    | some e => simp
    | none =>
      by_cases hfraction : t.fraction = []
      · cases t.negative with
        | false => simp [hfraction, eq_comm]
        | true => simp [hfraction, eq_comm, and_assoc]
      · simp [hfraction]
  · have hcut : (gather 0 t.whole).2 ≠ t.whole.length := fun h => hfits (hgather.1 h)
    simp [hcut, hfits]

/-- The token of an integer is written as the text of the integer. -/
theorem encode_of_int? {t : NumberToken} {i : Int} (hwhole : Canonical t.whole)
    (h : t.int? = some i) : Fits i ∧ Text.encode (toString i) = t.bytes := by
  have hmax : Numeral.max64 = 0xFFFFFFFFFFFFFFFF := rfl
  obtain ⟨-, -, hle, ⟨hsign, rfl⟩ | ⟨hsign, hpos, hlow, rfl⟩⟩ := int?_eq_some_iff.1 h
  · refine ⟨⟨by omega, by omega⟩, ?_⟩
    rw [encode_ofNat, encode_decimal hwhole, bytes, hsign]
    rfl
  · refine ⟨⟨by omega, by omega⟩, ?_⟩
    rw [encode_neg hpos, encode_decimal hwhole, bytes, hsign]
    rfl

/-- Every integer of 64 bits has its token. -/
theorem exists_integer {i : Int} (hi : Fits i) : ∃ negative ds, Canonical ds ∧
    (⟨negative, ds, [], none⟩ : NumberToken).int? = some i := by
  have hmax : Numeral.max64 = 0xFFFFFFFFFFFFFFFF := rfl
  obtain ⟨hlow, hhigh⟩ := hi
  obtain ⟨ds, hds, hvalue⟩ := exists_canonical i.natAbs
  refine ⟨decide (i < 0), ds, hds, int?_eq_some_iff.2 ⟨rfl, rfl, ?_, ?_⟩⟩
  · simp only [hvalue]
    omega
  · simp only [hvalue, decide_eq_false_iff_not, decide_eq_true_eq]
    omega

end NumberToken

/-! ## Texts -/

theorem value_eq_int_iff {t : NumberToken} {rest : Bytes} {i : Int} :
    t.value rest = .ok (.int i) ↔ t.int? = some i := by
  unfold NumberToken.value
  cases t.int? with
  | some j => simp
  | none => cases t.real rest <;> simp [Except.map]

theorem digitByte_ne {d : Nat} (h : d < 10) :
    digitByte d ≠ 110 ∧ digitByte d ≠ 116 ∧ digitByte d ≠ 102 ∧ digitByte d ≠ 34 ∧
      digitByte d ≠ 45 ∧ digitByte d ≠ 91 ∧ digitByte d ≠ 123 ∧ isSpace (digitByte d) = false := by
  have hall : ∀ d < 10, digitByte d ≠ 110 ∧ digitByte d ≠ 116 ∧ digitByte d ≠ 102 ∧
      digitByte d ≠ 34 ∧ digitByte d ≠ 45 ∧ digitByte d ≠ 91 ∧ digitByte d ≠ 123 ∧
      isSpace (digitByte d) = false := by decide
  exact hall d h

/-- An integer starts with a minus sign or a digit. -/
theorem bytes_eq_cons {t : NumberToken} (h : Canonical t.whole) :
    ∃ b r, t.bytes = b :: r ∧ b ≠ 91 ∧ b ≠ 123 ∧ isSpace b = false := by
  unfold NumberToken.bytes
  cases t.negative with
  | true => exact ⟨45, _, rfl, by decide, by decide, by decide⟩
  | false =>
    cases hwhole : t.whole with
    | nil => exact absurd hwhole h.ne_nil
    | cons d ds =>
      have hd : d < 10 := h.lt_ten d (hwhole ▸ List.mem_cons_self)
      obtain ⟨-, -, -, -, -, hlist, hobject, hspace⟩ := digitByte_ne hd
      exact ⟨digitByte d, _, rfl, hlist, hobject, hspace⟩

theorem readLeaf_of_bytes {t : NumberToken} {i : Int} {b : UInt8} {r rest : Bytes}
    (hfraction : t.fraction = []) (hexponent : t.exponent = none) (hwhole : Canonical t.whole)
    (hi : t.int? = some i) (hrest : Ends rest) (h : b :: r = t.bytes ++ rest) :
    readLeaf b r = .ok (.number (.int i), rest) := by
  obtain ⟨negative, ds, fraction, exponent⟩ := t
  simp only at hfraction hexponent hwhole
  subst hfraction hexponent
  have hread : NumberToken.read negative (ds.map digitByte ++ rest) = _ :=
    NumberToken.read_integer hwhole hrest
  have hvalue : NumberToken.value _ rest = _ := value_eq_int_iff.2 hi
  unfold NumberToken.bytes at h
  cases negative with
  | true =>
    obtain ⟨rfl, rfl⟩ := List.cons.inj h
    simp [readLeaf, hread, hvalue, bind, Except.bind, pure, Except.pure]
  | false =>
    cases ds with
    | nil => exact absurd rfl hwhole.ne_nil
    | cons d ds =>
      have hd : d < 10 := hwhole.lt_ten d List.mem_cons_self
      obtain ⟨hn, ht, hf, hq, hminus, -⟩ := digitByte_ne hd
      obtain ⟨rfl, rfl⟩ := List.cons.inj h
      rw [List.map_cons, List.cons_append] at hread
      simp [readLeaf, hn, ht, hf, hq, hminus, digit?_digitByte hd, hread, hvalue, bind, Except.bind,
        pure, Except.pure]

theorem bytes_of_readLeaf {b : UInt8} {r rest : Bytes} {i : Int}
    (h : readLeaf b r = .ok (.number (.int i), rest)) : ∃ t : NumberToken,
      Canonical t.whole ∧ t.int? = some i ∧ b :: r = t.bytes ++ rest := by
  unfold readLeaf at h
  split at h
  · obtain ⟨_, -, h⟩ := map_eq_ok_iff.1 h
    cases h
  split at h
  · obtain ⟨_, -, h⟩ := map_eq_ok_iff.1 h
    cases h
  split at h
  · obtain ⟨_, -, h⟩ := map_eq_ok_iff.1 h
    cases h
  split at h
  · obtain ⟨_, -, h⟩ := map_eq_ok_iff.1 h
    cases h
  split at h
  · obtain ⟨⟨t, s⟩, hread, h⟩ := bind_eq_ok_iff.1 h
    obtain ⟨n, hvalue, h⟩ := bind_eq_ok_iff.1 h
    cases h
    have hi := value_eq_int_iff.1 hvalue
    obtain ⟨hfraction, hexponent, -⟩ := NumberToken.int?_eq_some_iff.1 hi
    obtain ⟨hsign, hwhole, hs⟩ := NumberToken.integer_of_read hread hfraction hexponent
    refine ⟨t, hwhole, hi, ?_⟩
    rw [NumberToken.bytes, hsign, List.append_assoc, ← hs]
    by_cases hb : b = 45
    · simp [hb]
    · simp [hb]
  · cases h

/-- White space of JSON texts: spaces, line feeds, tabs and carriage returns. -/
def Blank (s : Bytes) : Prop := ∀ b ∈ s, b = 32 ∨ b = 10 ∨ b = 9 ∨ b = 13

theorem blank_iff {s : Bytes} : Blank s ↔ ∀ b ∈ s, isSpace b = true := by
  simp only [Blank, isSpace, Bool.or_eq_true, beq_iff_eq, or_assoc]

theorem ends_of_blank {s : Bytes} (h : Blank s) : Ends s := by
  intro b hb
  rcases h b (List.mem_of_mem_head? hb) with rfl | rfl | rfl | rfl <;> decide

theorem dropSpace_eq_nil_iff {s : Bytes} : dropSpace s = [] ↔ Blank s := by
  rw [dropSpace, List.dropWhile_eq_nil_iff, blank_iff]

theorem dropSpace_append {before s : Bytes} (h : Blank before) :
    dropSpace (before ++ s) = dropSpace s :=
  List.dropWhile_append_of_pos (blank_iff.1 h)

theorem exists_blank (s : Bytes) : ∃ before, Blank before ∧ s = before ++ dropSpace s :=
  ⟨s.takeWhile isSpace, blank_iff.2 fun _ hb => List.mem_takeWhile_imp hb,
    List.takeWhile_append_dropWhile.symm⟩

/-- A value that is an integer is a leaf. -/
theorem readLeaf_of_readValue {depth : Nat} {shape : Shape} {s rest : Bytes} {n : Number}
    (h : readValue depth shape s = .ok (.number n, rest)) :
    ∃ b r, dropSpace s = b :: r ∧ readLeaf b r = .ok (.number n, rest) := by
  unfold readValue at h
  split at h
  · cases h
  · split at h
    · cases h
    · obtain ⟨_, -, h⟩ := map_eq_ok_iff.1 h
      cases h
  · split at h
    · cases h
    · obtain ⟨_, -, h⟩ := map_eq_ok_iff.1 h
      cases h
  · next b r _ _ hs => exact ⟨b, r, hs, h⟩

theorem readValue_leaf {depth : Nat} {shape : Shape} {s r : Bytes} {b : UInt8}
    (hs : dropSpace s = b :: r) (hlist : b ≠ 91) (hobject : b ≠ 123) :
    readValue depth shape s = readLeaf b r := by
  unfold readValue
  rw [hs]
  split <;> simp_all

/-- White space in front of a value is passed over. -/
theorem readValue_append {depth : Nat} {shape : Shape} {before : Bytes} (h : Blank before)
    (s : Bytes) : readValue depth shape (before ++ s) = readValue depth shape s := by
  unfold readValue
  rw [dropSpace_append h]

/-- An integer is read from its text, whatever ends it. -/
theorem readValue_integer {depth : Nat} {shape : Shape} {i : Int} {rest : Bytes} (hi : Fits i)
    (hrest : Ends rest) : readValue depth shape (Text.encode (toString i) ++ rest) =
      .ok (.number (.int i), rest) := by
  obtain ⟨negative, ds, hwhole, hvalue⟩ := NumberToken.exists_integer hi
  obtain ⟨-, hencode⟩ := NumberToken.encode_of_int? hwhole hvalue
  obtain ⟨b, t, hbytes, hlist, hobject, hspace⟩ :=
    bytes_eq_cons (t := ⟨negative, ds, [], none⟩) hwhole
  rw [hencode, hbytes, List.cons_append]
  have hdrop : dropSpace (b :: (t ++ rest)) = b :: (t ++ rest) :=
    List.dropWhile_cons_of_neg (by simp [hspace])
  rw [readValue_leaf hdrop hlist hobject]
  refine readLeaf_of_bytes rfl rfl hwhole hvalue hrest ?_
  rw [hbytes, List.cons_append]

/-- **A text is read as an integer when it is the decimal text of the integer, with or without white
space around it, and the integer fits in 64 bits.** -/
theorem parse_eq_int_iff {s : Bytes} {i : Int} :
    parse s = .ok (.number (.int i)) ↔ Fits i ∧ ∃ before after,
      Blank before ∧ Blank after ∧ s = before ++ Text.encode (toString i) ++ after := by
  unfold parse parseAs
  simp only [mapError_eq_ok_iff, bind_eq_ok_iff]
  constructor
  · rintro ⟨⟨v, r⟩, hvalue, h⟩
    simp only at h
    split at h
    · next hr =>
      cases h
      obtain ⟨b, t, hs, hleaf⟩ := readLeaf_of_readValue hvalue
      obtain ⟨token, hwhole, hi, hbytes⟩ := bytes_of_readLeaf hleaf
      obtain ⟨hfits, hencode⟩ := NumberToken.encode_of_int? hwhole hi
      obtain ⟨before, hbefore, hsplit⟩ := exists_blank s
      refine ⟨hfits, before, r, hbefore, dropSpace_eq_nil_iff.1 hr, ?_⟩
      rw [hsplit, hs, hbytes, hencode, List.append_assoc]
    · cases h
  · rintro ⟨hfits, before, after, hbefore, hafter, rfl⟩
    refine ⟨(.number (.int i), after), ?_, ?_⟩
    · rw [List.append_assoc, readValue_append hbefore, readValue_integer hfits]
      exact ends_of_blank hafter
    · simp only [dropSpace_eq_nil_iff.2 hafter]
      rfl

end SecretMount.Json
