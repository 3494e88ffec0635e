import SecretMount.Proofs.Cursors
import SecretMount.Proofs.Quotation
import SecretMount.Yaml.Scalar.Plain
import SecretMount.Yaml.Scalar.Quoted

/-!
# JSON strings and words as YAML scalars

What is read of a JSON string between double quotes, or of a JSON number or word as a plain scalar,
when it is read without a fault.

* `Yaml.Unbroken` : the characters that end no line, apart from those that a JSON string may not
  hold as they are;
* `Quoted.text_of_read` : a string is read as it is meant, or refused: half of a pair of surrogates
  is no character for YAML;
* `Plain.Word`, `Plain.text_of_read` : a word within brackets or braces, with the white space behind
  it.
-/

namespace SecretMount.Yaml

/-! ## Strings -/

/-- A character that ends a line in YAML texts only. -/
def Unbroken (a : Char) : Prop := a ≠ '\u0085' ∧ a ≠ '\u2028' ∧ a ≠ '\u2029'

namespace Quoted

theorem exists_digit {b : UInt8} {d : Nat} (h : Json.hexDigit? b = some d) :
    ∃ a, String.utf8EncodeChar a = [b] ∧ Numeral.digitBelow? 16 a = some d := by
  have hall : ∀ n < 256, ∀ d, Json.hexDigit? (UInt8.ofNat n) = some d →
      String.utf8EncodeChar (Char.ofNat n) = [UInt8.ofNat n] ∧
        Numeral.digitBelow? 16 (Char.ofNat n) = some d := by
    have hdigits : ∀ n < 256, (Json.hexDigit? (UInt8.ofNat n)).isSome →
        String.utf8EncodeChar (Char.ofNat n) = [UInt8.ofNat n] ∧
          Numeral.digitBelow? 16 (Char.ofNat n) = Json.hexDigit? (UInt8.ofNat n) := by
      decide +kernel
    intro n hn d hd
    obtain ⟨hencoded, hdigit⟩ := hdigits n hn (by rw [hd]; rfl)
    exact ⟨hencoded, hdigit.trans hd⟩
  have hb := hall b.toNat b.toNat_lt d
  rw [UInt8.ofNat_toNat] at hb
  exact ⟨_, hb h⟩

/-- Four digits are the same number for both. -/
theorem exists_digits {n : Nat} {s : Bytes} (h : Json.Hex n s) :
    ∃ ds, Text.bytes ds = s ∧ ds.length = 4 ∧ Numeral.ofRadix? 16 ds = some n := by
  obtain ⟨ha, hb, hc, hd⟩ := h
  obtain ⟨a, hencodedA, hA⟩ := exists_digit ha
  obtain ⟨b, hencodedB, hB⟩ := exists_digit hb
  obtain ⟨c, hencodedC, hC⟩ := exists_digit hc
  obtain ⟨d, hencodedD, hD⟩ := exists_digit hd
  refine ⟨[a, b, c, d], by simp [hencodedA, hencodedB, hencodedC, hencodedD], rfl, ?_⟩
  simp [Numeral.ofRadix?, hA, hB, hC, hD]

/-- What a letter stands for in JSON it stands for in YAML. -/
theorem exists_letter {b : UInt8} {c : Char} (h : Json.escaped? b = some c) :
    ∃ a, String.utf8EncodeChar a = [b] ∧ isBreak a = false ∧ codeLength? a = none ∧
      escaped? a = some c := by
  unfold Json.escaped? at h
  repeat' split at h
  · next hb => cases h; exact ⟨'"', by rw [hb]; decide⟩
  · next hb => cases h; exact ⟨'\\', by rw [hb]; decide⟩
  · next hb => cases h; exact ⟨'/', by rw [hb]; decide⟩
  · next hb => cases h; exact ⟨'b', by rw [hb]; decide⟩
  · next hb => cases h; exact ⟨'f', by rw [hb]; decide⟩
  · next hb => cases h; exact ⟨'n', by rw [hb]; decide⟩
  · next hb => cases h; exact ⟨'r', by rw [hb]; decide⟩
  · next hb => cases h; exact ⟨'t', by rw [hb]; decide⟩
  · cases h

theorem readCode_spelled {start : Mark} {c d : Cursor} {n : Nat} {a : Char} {s r : Bytes}
    (h : readCode start 4 c = .ok (a, d)) (hs : Json.Hex n s) (hc : Holds c.cut c.rest (s ++ r)) :
    n.isValidChar ∧ a = Char.ofNat n ∧ Holds d.cut d.rest r ∧ c.Behind d := by
  obtain ⟨ds, rfl, hlength, hradix⟩ := exists_digits hs
  unfold readCode at h
  obtain ⟨⟨⟩, hneed, h⟩ := bind_eq_ok_iff.1 h
  simp only at h
  obtain ⟨x, hrest, hx⟩ := hc.append (hlength ▸ Cursor.need_eq_ok hneed)
  have htake : c.rest.take 4 = ds := by rw [hrest, ← hlength, List.take_left]
  rw [htake, if_pos hlength, hradix] at h
  simp only at h
  split at h
  · next hvalid =>
    cases h
    refine ⟨hvalid, rfl, ?_, .skipMany 4 c⟩
    rw [Cursor.skipMany, hrest, ← hlength, List.drop_left]
    exact hx
  · cases h

/-- The characters `cs` are still to come in front of a closing quote and `r`. -/
def Before (c : Cursor) (cs : List Char) (r : Bytes) : Prop :=
  ∃ q, Json.Spelled cs q ∧ Holds c.cut c.rest (q ++ 34 :: r)

theorem readEscape_letter {start : Mark} {c d : Cursor} {x : List Char} {b : UInt8} {a e : Char}
    {r : Bytes} (hrest : c.rest = '\\' :: x) (hb : Json.escaped? b = some e)
    (hx : Holds c.cut x (b :: r)) (h : readEscape start c = .ok (a, d)) :
    a = e ∧ Holds d.cut d.rest r ∧ c.Behind d := by
  obtain ⟨l, hencoded, -, hcode, hletter⟩ := exists_letter hb
  unfold readEscape at h
  rw [hrest] at h
  cases x with
  | nil => cases h
  | cons y z =>
    obtain ⟨w, heq, hw⟩ := hx.byte hencoded (List.cons_ne_nil y z)
    obtain ⟨rfl, rfl⟩ := List.cons.inj heq
    simp only [hcode, hletter] at h
    cases h
    refine ⟨rfl, ?_, .skipMany 2 c⟩
    rw [Cursor.skipMany, hrest]
    exact hw

theorem readEscape_hex {start : Mark} {c d : Cursor} {x : List Char} {n : Nat} {a : Char}
    {s r : Bytes} (hrest : c.rest = '\\' :: x) (hs : Json.Hex n s)
    (hx : Holds c.cut x (117 :: (s ++ r))) (h : readEscape start c = .ok (a, d)) :
    n.isValidChar ∧ a = Char.ofNat n ∧ Holds d.cut d.rest r ∧ c.Behind d := by
  unfold readEscape at h
  rw [hrest] at h
  cases x with
  | nil => cases h
  | cons y z =>
    obtain ⟨w, heq, hw⟩ := hx.byte (a := 'u') rfl (List.cons_ne_nil y z)
    obtain ⟨rfl, rfl⟩ := List.cons.inj heq
    have hskip : (c.skipMany 2).rest = z := by
      rw [Cursor.skipMany, hrest]
      rfl
    obtain ⟨hvalid, ha, hd, hbehind⟩ :=
      readCode_spelled h hs (show Holds c.cut (c.skipMany 2).rest _ from hskip ▸ hw)
    exact ⟨hvalid, ha, hd, (Cursor.Behind.skipMany 2 c).trans hbehind⟩

/-- Behind a backslash the line does not end. -/
theorem seesAny_isBreak {c : Cursor} {x : List Char} {a : Char} {b : UInt8} {r : Bytes}
    (hrest : c.rest = '\\' :: x) (hencoded : String.utf8EncodeChar a = [b])
    (hx : Holds c.cut x (b :: r)) (ha : isBreak a = false) : c.skip.seesAny isBreak = false := by
  have hskip : c.skip.rest = x := Cursor.rest_skip hrest
  unfold Cursor.seesAny
  rw [hskip]
  cases x with
  | nil => rfl
  | cons y z =>
    obtain ⟨w, heq, -⟩ := hx.byte hencoded (List.cons_ne_nil y z)
    obtain ⟨rfl, rfl⟩ := List.cons.inj heq
    exact ha

/-- Half of a pair of surrogates is no character. -/
theorem not_isValidChar_of_isLeading {n : Nat} (h : Json.isLeading n = true) :
    ¬ n.isValidChar := by
  unfold Json.isLeading at h
  rw [Bool.and_eq_true, decide_eq_true_eq, decide_eq_true_eq] at h
  unfold Nat.isValidChar
  omega

/-- What the next character of a string is: the closing quote, a character as it is, or the start of
an escape. -/
theorem Before.cases {c : Cursor} {cs x : List Char} {a : Char} {r : Bytes} (h : Before c cs r)
    (hrest : c.rest = a :: x) :
    (a = '"' ∧ cs = [] ∧ Holds c.cut x r) ∨
    (a ≠ '"' ∧ a ≠ '\\' ∧ 32 ≤ a.toNat ∧ ∃ es, cs = a :: es ∧ Before c.skip es r) ∨
    (a = '\\' ∧ c.skip.seesAny isBreak = false ∧
      ∀ {start e d}, readEscape start c = .ok (e, d) →
        ∃ es, cs = e :: es ∧ Before d es r ∧ c.Behind d) := by
  obtain ⟨q, hq, hholds⟩ := h
  have hskip : c.skip.rest = x := Cursor.rest_skip hrest
  rw [hrest] at hholds
  cases hq with
  | nil =>
    obtain ⟨_, heq, hx⟩ := hholds.byte (a := '"') rfl (List.cons_ne_nil a x)
    obtain ⟨rfl, rfl⟩ := List.cons.inj heq
    exact Or.inl ⟨rfl, rfl, hx⟩
  | @cons e es s t he hes =>
    cases he with
    | plain hquote hbackslash hcontrol =>
      rw [List.append_assoc] at hholds
      obtain ⟨_, heq, hx⟩ := hholds.cons (List.cons_ne_nil a x)
      obtain ⟨rfl, rfl⟩ := List.cons.inj heq
      have hbefore : Before c.skip es r := ⟨t, hes, show Holds c.cut c.skip.rest _ from hskip ▸ hx⟩
      exact Or.inr (Or.inl ⟨hquote, hbackslash, hcontrol, es, rfl, hbefore⟩)
    | letter hb =>
      obtain ⟨_, heq, hx⟩ := hholds.byte (a := '\\') rfl (List.cons_ne_nil a x)
      obtain ⟨rfl, rfl⟩ := List.cons.inj heq
      obtain ⟨l, hencoded, hbreak, -⟩ := exists_letter hb
      refine Or.inr (Or.inr ⟨rfl, seesAny_isBreak hrest hencoded hx hbreak, fun h => ?_⟩)
      obtain ⟨rfl, hd, hbehind⟩ := readEscape_letter hrest hb hx h
      exact ⟨es, rfl, ⟨t, hes, hd⟩, hbehind⟩
    | hex hs =>
      rw [List.cons_append, List.cons_append, List.cons_append, List.cons_append,
        List.append_assoc] at hholds
      obtain ⟨_, heq, hx⟩ := hholds.byte (a := '\\') rfl (List.cons_ne_nil a x)
      obtain ⟨rfl, rfl⟩ := List.cons.inj heq
      refine Or.inr (Or.inr ⟨rfl, seesAny_isBreak (a := 'u') hrest rfl hx rfl, fun h => ?_⟩)
      obtain ⟨-, rfl, hd, hbehind⟩ := readEscape_hex hrest hs hx h
      rw [Char.ofNat_toNat]
      exact ⟨es, rfl, ⟨t, hes, hd⟩, hbehind⟩
    | pair hhigh _ hs _ =>
      -- The reader takes the first half of a pair for a character of its own and fails.
      rw [List.cons_append, List.cons_append, List.cons_append, List.cons_append,
        List.append_assoc, List.append_assoc] at hholds
      obtain ⟨_, heq, hx⟩ := hholds.byte (a := '\\') rfl (List.cons_ne_nil a x)
      obtain ⟨rfl, rfl⟩ := List.cons.inj heq
      refine Or.inr (Or.inr ⟨rfl, seesAny_isBreak (a := 'u') hrest rfl hx rfl, fun h => ?_⟩)
      obtain ⟨hvalid, -⟩ := readEscape_hex hrest hs hx h
      exact absurd hvalid (not_isValidChar_of_isLeading hhigh)

/-- A character that is written as it is ends no line. -/
theorem isBreak_eq_false {a : Char} (hcontrol : 32 ≤ a.toNat) (ha : Unbroken a) :
    isBreak a = false := by
  obtain ⟨hnext, hline, hparagraph⟩ := ha
  have hfeed : a ≠ '\n' := by
    rintro rfl
    exact absurd hcontrol (by decide)
  have hreturn : a ≠ '\r' := by
    rintro rfl
    exact absurd hcontrol (by decide)
  simp [isBreak, hnext, hline, hparagraph, hfeed, hreturn]

variable {start : Mark} {r : Bytes}

/-- A part of the string is read, as it is meant. -/
theorem before_of_readWord : ∀ {fuel : Nat} {text text' cs : List Char} {c d : Cursor}
    {joined : Bool}, readWord '"' start fuel text c = .ok (text', d, joined) → Before c cs r →
      joined = false ∧ c.Behind d ∧
        ∃ ds es, cs = ds ++ es ∧ text' = ds.reverse ++ text ∧ Before d es r
  | 0, text, _, cs, c, _, _, h, hc => by
    cases h
    exact ⟨rfl, .refl c, [], cs, rfl, rfl, hc⟩
  | fuel + 1, text, text', cs, c, d, joined, h, hc => by
    unfold readWord at h
    have hstop : ∀ {text' d joined}, (Except.ok (text, c, false) : Except Fault _) =
        .ok (text', d, joined) → joined = false ∧ c.Behind d ∧
          ∃ ds es, cs = ds ++ es ∧ text' = ds.reverse ++ text ∧ Before d es r := by
      rintro _ _ _ ⟨⟩
      exact ⟨rfl, .refl c, [], cs, rfl, rfl, hc⟩
    split at h
    · exact hstop h
    · next a x hrest =>
      split at h
      · exact hstop h
      · rcases hc.cases hrest with ⟨rfl, -⟩ | ⟨hquote, hbackslash, -, es, rfl, hes⟩ |
          ⟨rfl, hbreak, hescape⟩
        · exact hstop h
        · rw [if_neg hquote, if_neg (fun hand => hbackslash hand.2)] at h
          obtain ⟨-, -, h⟩ := bind_eq_ok_iff.1 h
          obtain ⟨hjoined, hbehind, ds, us, rfl, rfl, hd⟩ := before_of_readWord h hes
          exact ⟨hjoined, (Cursor.Behind.skip c).trans hbehind, a :: ds, us, rfl, by simp, hd⟩
        · rw [if_neg (by decide), if_pos ⟨rfl, rfl⟩, hbreak, if_neg Bool.false_ne_true] at h
          obtain ⟨⟨e, c'⟩, he, h⟩ := bind_eq_ok_iff.1 h
          obtain ⟨-, -, h⟩ := bind_eq_ok_iff.1 h
          obtain ⟨es, rfl, hes, hbehind⟩ := hescape he
          obtain ⟨hjoined, hbehind', ds, us, rfl, rfl, hd⟩ := before_of_readWord h hes
          exact ⟨hjoined, hbehind.trans hbehind', e :: ds, us, rfl, by simp, hd⟩

/-- The gaps of a string are kept. -/
theorem before_of_readFold : ∀ {fuel : Nat} {f g : Fold} {cs : List Char} {c d : Cursor},
    Fold.read 0 start fuel f c = .ok (g, d) → f.broken = false → Before c cs r →
      (∀ a ∈ c.rest, Unbroken a) → g.broken = false ∧ c.Behind d ∧
        ∃ ds es, cs = ds ++ es ∧ g.gaps = f.gaps ++ ds ∧ Before d es r
  | 0, f, _, cs, c, _, h, hf, hc, _ => by
    cases h
    exact ⟨hf, .refl c, [], cs, rfl, (List.append_nil f.gaps).symm, hc⟩
  | fuel + 1, f, g, cs, c, d, h, hf, hc, hunbroken => by
    unfold Fold.read at h
    obtain ⟨-, -, h⟩ := bind_eq_ok_iff.1 h
    have hstop : ∀ {g d}, (Except.ok (f, c) : Except Fault _) = .ok (g, d) →
        g.broken = false ∧ c.Behind d ∧
          ∃ ds es, cs = ds ++ es ∧ g.gaps = f.gaps ++ ds ∧ Before d es r := by
      rintro _ _ ⟨⟩
      exact ⟨hf, .refl c, [], cs, rfl, (List.append_nil f.gaps).symm, hc⟩
    split at h
    · exact hstop h
    · next a x hrest =>
      rcases hc.cases hrest with ⟨rfl, -⟩ | ⟨-, -, hcontrol, es, rfl, hes⟩ | ⟨rfl, -⟩
      · exact hstop h
      · rw [isBreak_eq_false hcontrol (hunbroken a (hrest ▸ List.mem_cons_self))] at h
        split at h
        · rw [hf, if_neg Bool.false_ne_true] at h
          have hskip : ∀ b ∈ c.skip.rest, Unbroken b := fun b hb =>
            hunbroken b ((Cursor.Behind.skip c).rest.mem hb)
          obtain ⟨hg, hbehind, ds, us, rfl, hgaps, hd⟩ := before_of_readFold h rfl hes hskip
          exact ⟨hg, (Cursor.Behind.skip c).trans hbehind, a :: ds, us, rfl, by simp [hgaps], hd⟩
        · exact hstop h
      · exact hstop h

theorem text_of_readWords : ∀ {fuel : Nat} {text text' cs : List Char} {c d : Cursor},
    readWords '"' start fuel text c = .ok (text', d) → Before c cs r →
      (∀ a ∈ c.rest, Unbroken a) → text' = text.reverse ++ cs ∧ Holds d.cut d.rest r ∧ c.Behind d
  | 0, _, _, _, _, _, h, _, _ => by cases h
  | fuel + 1, text, text', cs, c, d, h, hc, hunbroken => by
    unfold readWords at h
    obtain ⟨-, -, h⟩ := bind_eq_ok_iff.1 h
    split at h
    · cases h
    · split at h
      · cases h
      · obtain ⟨⟨text₁, c₁, joined⟩, hword, h⟩ := bind_eq_ok_iff.1 h
        obtain ⟨rfl, hbehind, ds, es, rfl, rfl, hc₁⟩ := before_of_readWord hword hc
        obtain ⟨-, -, h⟩ := bind_eq_ok_iff.1 h
        split at h
        · next hsees =>
          cases h
          obtain ⟨x, hx⟩ := List.head?_eq_some_iff.1 (beq_iff_eq.1 hsees)
          rcases hc₁.cases hx with ⟨-, rfl, hholds⟩ | ⟨hquote, -⟩ | ⟨hquote, -⟩
          · refine ⟨by simp, ?_, hbehind.trans (.skip c₁)⟩
            rw [Cursor.rest_skip hx]
            exact hholds
          · exact absurd rfl hquote
          · exact absurd hquote (by decide)
        · obtain ⟨⟨fold, c₂⟩, hfold, h⟩ := bind_eq_ok_iff.1 h
          have hunbroken₁ : ∀ a ∈ c₁.rest, Unbroken a := fun a ha =>
            hunbroken a (hbehind.rest.mem ha)
          obtain ⟨hflat, hbehind₂, gs, us, rfl, hgaps, hc₂⟩ :=
            before_of_readFold hfold rfl hc₁ hunbroken₁
          obtain ⟨rfl, hd, hbehind₃⟩ := text_of_readWords h hc₂ fun a ha =>
            hunbroken₁ a (hbehind₂.rest.mem ha)
          refine ⟨?_, hd, hbehind.trans (hbehind₂.trans hbehind₃)⟩
          have htext : fold.text = gs := by
            rw [Fold.text, hflat, if_neg Bool.false_ne_true, hgaps]
            rfl
          simp [htext]

/-- **A JSON string is read as it is meant when it is read.** -/
theorem text_of_read {c d : Cursor} {x text cs : List Char} {q : Bytes}
    (h : read '"' c = .ok (text, d)) (hrest : c.rest = '"' :: x) (hq : Json.Spelled cs q)
    (hx : Holds c.cut x (q ++ 34 :: r)) (hunbroken : ∀ a ∈ x, Unbroken a) :
    text = cs ∧ Holds d.cut d.rest r ∧ c.skip.Behind d := by
  have hskip : c.skip.rest = x := Cursor.rest_skip hrest
  have hbefore : Before c.skip cs r := ⟨q, hq, show Holds c.cut c.skip.rest _ from hskip ▸ hx⟩
  exact text_of_readWords h hbefore (hskip ▸ hunbroken)

end Quoted

/-! ## Words -/

namespace Plain

/-- The characters of JSON numbers and words. -/
def isWordly (a : Char) : Bool := a.isAlphanum || a == '-' || a == '+' || a == '.'

/-- A JSON number or word. A minus sign stands in front of a digit. -/
structure Word (cs : List Char) : Prop where
  wordly : ∀ a ∈ cs, isWordly a = true
  starts : ∃ a x, cs = a :: x ∧
    (a.isAlphanum = true ∨ a = '-' ∧ ∃ b y, x = b :: y ∧ b.isDigit = true)

theorem Word.of_all {s : String} {a : Char} {x : List Char} (hs : s.toList = a :: x)
    (hall : s.toList.all isWordly = true) (ha : a.isAlphanum = true) : Word s.toList :=
  ⟨List.all_eq_true.1 hall, a, x, hs, Or.inl ha⟩

/-- The marks behind the items of lists and the members of objects. -/
def Closing (m : Char) : Prop := m = ',' ∨ m = ']' ∨ m = '\x7d'

theorem Closing.solid {m : Char} (h : Closing m) : Solid m := by
  unfold Solid
  rcases h with rfl | rfl | rfl <;> decide

/-- No character of a class is one of those outside of it. -/
theorem ne_of_all {p : Char → Bool} {l : List Char} {a : Char} (hl : l.all (!p ·) = true)
    (ha : p a = true) : ∀ b ∈ l, a ≠ b := by
  rintro b hb rfl
  have hnot := List.all_eq_true.1 hl a hb
  rw [ha] at hnot
  cases hnot

/-- What ends no word. -/
theorem wordly_spec {a : Char} (h : isWordly a = true) :
    isGap a = false ∧ isBreak a = false ∧ a ≠ ':' ∧ isPunctuation a = false ∧ a ≠ '#' := by
  have hne := ne_of_all (l := [' ', '\t', '\n', '\r', '\u0085', '\u2028', '\u2029', ':', ',', '[',
    ']', '\x7b', '\x7d', '#']) (by decide) h
  simp only [List.forall_mem_cons] at hne
  simp [isGap, isBreak, isPunctuation, hne]

variable {start : Mark}

/-- A word ends in front of white space and marks. -/
theorem readWord_stop {fuel : Nat} {text x : List Char} {a : Char} {c : Cursor}
    (hrest : c.rest = a :: x) (hcolon : a ≠ ':')
    (ha : isGap a = true ∨ isBreak a = true ∨ isPunctuation a = true) :
    readWord true start fuel text c = .ok (text, c) := by
  cases fuel with
  | zero => rfl
  | succ fuel =>
    unfold readWord
    rw [hrest]
    simp only [Bool.or_eq_true, Bool.and_eq_true, beq_iff_eq, hcolon, Bool.true_and]
    split
    · rfl
    · next hstop =>
      rw [if_neg (by simp), if_pos]
      simpa [not_or.1 hstop] using ha

/-- What ends a word starts with white space or a mark. -/
theorem head_of_closing {cut : Option Fault} {x : List Char} {a m : Char} {b s : Bytes}
    (hb : Json.Blank b) (hm : Closing m)
    (h : Holds cut (a :: x) (b ++ (String.utf8EncodeChar m ++ s))) :
    a ≠ ':' ∧ (isGap a = true ∨ isBreak a = true ∨ isPunctuation a = true) := by
  cases b with
  | nil =>
    obtain ⟨_, heq, -⟩ := Holds.cons h (List.cons_ne_nil a x)
    obtain ⟨rfl, -⟩ := List.cons.inj heq
    rcases hm with rfl | rfl | rfl <;> decide
  | cons y b =>
    obtain ⟨hspace, -⟩ := List.forall_mem_cons.1 hb
    obtain ⟨w, hencoded, hw⟩ := utf8EncodeChar_of_space hspace
    obtain ⟨_, heq, -⟩ := Holds.byte hencoded h (List.cons_ne_nil a x)
    obtain ⟨rfl, -⟩ := List.cons.inj heq
    rcases hw with rfl | rfl | rfl | rfl <;> decide

section Words

variable {b s : Bytes} {m : Char}

theorem text_of_readWord (hb : Json.Blank b) (hm : Closing m) : ∀ {cs text text' : List Char}
    {fuel : Nat} {c d : Cursor}, readWord true start fuel text c = .ok (text', d) →
      (∀ a ∈ cs, isWordly a = true) →
      Holds c.cut c.rest (Text.bytes cs ++ (b ++ (String.utf8EncodeChar m ++ s))) →
      c.rest.length ≤ fuel → c.rest ≠ [] → text' = cs.reverse ++ text ∧ c.Behind d ∧
        Holds d.cut d.rest (b ++ (String.utf8EncodeChar m ++ s)) ∧ d.rest ≠ [] ∧
        c.rest.length = cs.length + d.rest.length
  | [], text, _, fuel, c, _, h, _, hc, _, hne => by
    obtain ⟨a, x, hrest⟩ := List.exists_cons_of_ne_nil hne
    obtain ⟨hcolon, ha⟩ := head_of_closing hb hm (hrest ▸ hc)
    rw [readWord_stop hrest hcolon ha] at h
    cases h
    exact ⟨rfl, .refl c, hc, hne, (Nat.zero_add _).symm⟩
  | a :: cs, _, _, 0, _, _, _, _, _, hfuel, hne =>
    absurd (List.length_eq_zero_iff.1 (Nat.le_zero.1 hfuel)) hne
  | a :: cs, text, text', fuel + 1, c, d, h, hcs, hc, hfuel, hne => by
    obtain ⟨ha, hcs⟩ := List.forall_mem_cons.1 hcs
    obtain ⟨hgap, hbreak, hcolon, hpunctuation, -⟩ := wordly_spec ha
    rw [Text.bytes_cons, List.append_assoc] at hc
    obtain ⟨x, hrest, hx⟩ := hc.cons hne
    have hskip : c.skip.rest = x := Cursor.rest_skip hrest
    have hlength : c.rest.length = x.length + 1 := by rw [hrest, List.length_cons]
    unfold readWord at h
    rw [hrest] at h
    simp only [hgap, hbreak, hpunctuation, beq_eq_false_iff_ne.2 hcolon, Bool.or_self,
      Bool.false_and, Bool.and_false, if_neg Bool.false_ne_true] at h
    obtain ⟨⟨⟩, hneed, h⟩ := bind_eq_ok_iff.1 h
    have hx' : Holds c.skip.cut c.skip.rest _ := show Holds c.cut _ _ from hskip ▸ hx
    have hne' : c.skip.rest ≠ [] := by
      refine Cursor.ne_nil_of_need hneed hx' ?_
      obtain ⟨_, _, hencoded, -⟩ := Text.head_utf8EncodeChar m
      simp [hencoded]
    obtain ⟨rfl, hbehind, hd, hend, hlength'⟩ :=
      text_of_readWord hb hm h hcs hx' (by rw [hskip]; omega) hne'
    rw [hskip] at hlength'
    exact ⟨by simp, (Cursor.Behind.skip c).trans hbehind, hd, hend, by rw [List.length_cons]; omega⟩

/-- In front of a mark a scalar has ended. -/
theorem readWords_closing {column fuel : Nat} {text text' x : List Char} {fold : Fold}
    {c d : Cursor} {broken : Bool} (hm : Closing m) (hrest : c.rest = m :: x)
    (h : readWords true column start fuel text fold c = .ok (text', d, broken)) :
    text' = text.reverse ∧ d = c := by
  cases fuel with
  | zero =>
    cases h
    exact ⟨rfl, rfl⟩
  | succ fuel =>
    have hstop : m ≠ ':' ∧ isPunctuation m = true ∧ endsWord (m :: x) = false := by
      rcases hm with rfl | rfl | rfl <;> exact ⟨by decide, by decide, rfl⟩
    have hmark : (c.atDocumentMark || c.sees '#') = false := by
      simp only [Cursor.atDocumentMark, Cursor.atMark, Cursor.sees, hrest]
      rcases hm with rfl | rfl | rfl <;> simp
    unfold readWords at h
    obtain ⟨-, -, h⟩ := bind_eq_ok_iff.1 h
    rw [hmark, if_neg Bool.false_ne_true,
      readWord_stop hrest hstop.1 (Or.inr (Or.inr hstop.2.1))] at h
    simp only [bind, Except.bind, hrest, hstop.2.2, Bool.false_and, if_neg Bool.false_ne_true] at h
    cases h
    exact ⟨rfl, rfl⟩

/-- The first characters of a word, of which the second counts behind a minus sign. -/
theorem Word.head {cs : List Char} {c : Cursor} {r : Bytes} (hcs : Word cs)
    (hneed : c.need 4 = .ok ()) (hc : Holds c.cut c.rest (Text.bytes cs ++ r)) :
    ∃ a x, c.rest = a :: x ∧
      (a.isAlphanum = true ∨ a = '-' ∧ ∃ d y, x = d :: y ∧ d.isDigit = true) := by
  obtain ⟨a, x, rfl, ha⟩ := hcs.starts
  have hneed := Cursor.need_eq_ok hneed
  rcases ha with ha | ⟨rfl, d, y, rfl, hd⟩
  · have hc' : Holds c.cut c.rest (Text.bytes [a] ++ (Text.bytes x ++ r)) := by
      simpa [List.append_assoc] using hc
    obtain ⟨z, hz, -⟩ := hc'.append (hneed.imp_right fun h => Nat.le_trans (by simp) h)
    exact ⟨a, z, hz, Or.inl ha⟩
  · have hc' : Holds c.cut c.rest (Text.bytes ['-', d] ++ (Text.bytes y ++ r)) := by
      simpa [List.append_assoc] using hc
    obtain ⟨z, hz, -⟩ := hc'.append (hneed.imp_right fun h => Nat.le_trans (by simp) h)
    exact ⟨'-', d :: z, hz, Or.inr ⟨rfl, d, z, rfl, hd⟩⟩

/-- No document starts or ends at a word, and no comment starts there. -/
theorem Word.not_mark {cs : List Char} {c : Cursor} {r : Bytes} (hcs : Word cs)
    (hneed : c.need 4 = .ok ()) (hc : Holds c.cut c.rest (Text.bytes cs ++ r)) :
    (c.atDocumentMark || c.sees '#') = false := by
  obtain ⟨a, x, hrest, ha⟩ := hcs.head hneed hc
  simp only [Cursor.atDocumentMark, Cursor.atMark, Cursor.sees, hrest]
  rcases ha with ha | ⟨rfl, d, y, rfl, hd⟩
  · have hdiffers := ne_of_all (l := ['-', '.', '#']) (by decide) ha
    simp only [List.forall_mem_cons] at hdiffers
    simp [hdiffers]
  · have hdash : d ≠ '-' := by
      rintro rfl
      cases hd
    simp [hdash]

/-- White space in front of a mark is read. -/
theorem rest_of_fold {column fuel : Nat} {f g : Fold} {c d : Cursor}
    (h : Fold.read column start fuel f c = .ok (g, d)) (hb : Json.Blank b) (hm : Closing m)
    (hc : Holds c.cut c.rest (b ++ (String.utf8EncodeChar m ++ s))) (hfuel : c.rest.length < fuel) :
    c.Behind d ∧ ∃ x, d.rest = m :: x ∧ Holds d.cut x s := by
  obtain ⟨ws, y, hrest, hws, hclear, hy⟩ := Holds.clear hb hc hm.solid
  have hshort : ws.length ≤ c.rest.length := by
    rw [hrest, List.length_append]
    exact Nat.le_add_right _ _
  obtain ⟨hbehind, hd, hneed⟩ := Fold.rest_of_read h hrest hws hclear (by omega)
  rw [← hbehind.cut] at hy
  rcases hy with ⟨x, rfl, hx⟩ | ⟨rfl, hcut⟩
  · exact ⟨hbehind, x, hd, hx⟩
  · rcases Cursor.need_eq_ok hneed with hnone | hlong
    · exact absurd hnone hcut
    · rw [hd] at hlong
      exact absurd hlong (Nat.not_succ_le_zero 0)

/-- **A word is read with all white space behind it.** -/
theorem text_of_read {column : Nat} {cs text : List Char} {c d : Cursor} {broken : Bool}
    (h : read true column c = .ok (text, d, broken)) (hcs : Word cs) (hb : Json.Blank b)
    (hm : Closing m)
    (hc : Holds c.cut c.rest (Text.bytes cs ++ (b ++ (String.utf8EncodeChar m ++ s))))
    (htotal : c.rest.length ≤ c.total) :
    text = cs ∧ c.Behind d ∧ d.rest.length < c.rest.length ∧
      Holds d.cut d.rest (String.utf8EncodeChar m ++ s) := by
  unfold read Cursor.fuel readWords at h
  obtain ⟨⟨⟩, hneed, h⟩ := bind_eq_ok_iff.1 h
  rw [hcs.not_mark hneed hc, if_neg Bool.false_ne_true] at h
  obtain ⟨a, x, hrest, -⟩ := hcs.head hneed hc
  obtain ⟨⟨word, e⟩, hword, h⟩ := bind_eq_ok_iff.1 h
  obtain ⟨rfl, hbehind, he, hend, hlength⟩ := text_of_readWord hb hm hword hcs.wordly hc (by omega)
    (by rw [hrest]; exact List.cons_ne_nil a x)
  have hnonempty : (cs.reverse ++ []).isEmpty = false := by
    obtain ⟨a, x, rfl, -⟩ := hcs.starts
    simp
  have hpositive : 0 < cs.length := by
    obtain ⟨a, x, rfl, -⟩ := hcs.starts
    exact Nat.succ_pos _
  have htext : (cs.reverse ++ [] ++ (Fold.nothing.text.reverse ++ [])).reverse = cs := by
    simp [Fold.nothing, Fold.text]
  simp only [hnonempty, if_neg Bool.false_ne_true] at h
  have hrests := hbehind.rest.length_le
  split at h
  · obtain ⟨⟨fold, u⟩, hfold, h⟩ := bind_eq_ok_iff.1 h
    obtain ⟨hbehind', x, hu, hx⟩ := rest_of_fold hfold hb hm he (by omega)
    simp only [Bool.not_true, Bool.false_and, if_neg Bool.false_ne_true] at h
    obtain ⟨rfl, rfl⟩ := readWords_closing hm hu h
    have hle := hbehind'.rest.length_le
    refine ⟨htext, hbehind.trans hbehind', by omega, ?_⟩
    rw [hu]
    exact hx.prepend m
  · next hstop =>
    cases h
    refine ⟨htext, hbehind, by omega, ?_⟩
    cases b with
    | nil => exact he
    | cons y b =>
      obtain ⟨hspace, -⟩ := List.forall_mem_cons.1 hb
      obtain ⟨w, hencoded, hw⟩ := utf8EncodeChar_of_space hspace
      obtain ⟨z, hz, -⟩ := Holds.byte hencoded he hend
      rw [hz] at hstop
      refine absurd ?_ hstop
      rcases hw with rfl | rfl | rfl | rfl <;> rfl

end Words

end Plain

end SecretMount.Yaml
