import Mathlib.Data.List.Forall2
import Mathlib.Data.Nat.Digits.Defs
import SecretMount.Yaml.Schema

/-!
# Integers in YAML documents

* `Numeral.IsDigit`, `Numeral.Spelled` : the digits of a radix, and the numbers that they stand for
  side by side (`Numeral.ofRadix?_eq_some_iff`);
* `Schema.Magnitude` : numbers without a sign, in any radix (`Schema.magnitude?_eq_some_iff`);
* `Schema.IsInteger` : numbers with or without a sign. `Schema.int?_eq_some_iff` : they are read as
  far as they fit.
-/

namespace SecretMount

/-! ## Digits -/

namespace Numeral

/-- `c` is the digit of `radix` for `d`. Letters may be small or large. -/
def IsDigit (radix : Nat) (c : Char) (d : Nat) : Prop :=
  d < radix ∧ (c = Nat.digitChar d ∨ c = (Nat.digitChar d).toUpper)

/-- `cs` are digits of `radix`, at least one, that stand for `n`. -/
def Spelled (radix : Nat) (cs : List Char) (n : Nat) : Prop :=
  cs ≠ [] ∧ ∃ ds, List.Forall₂ (IsDigit radix) cs ds ∧ Nat.ofDigits radix ds.reverse = n

theorem toNat_lt_of_digit? {c : Char} {d : Nat} (h : digit? c = some d) : c.toNat < 103 := by
  unfold digit? at h
  split at h
  · next hc =>
    have hle : c.toNat ≤ 57 := by
      simp only [Char.isDigit, Bool.and_eq_true, decide_eq_true_eq] at hc
      exact hc.2
    omega
  · split at h
    · next hc => exact Nat.lt_succ_of_le hc.2
    · split at h
      · next hc => exact Nat.lt_of_le_of_lt hc.2 (by decide)
      · cases h

theorem digit?_eq_some_iff {c : Char} {d : Nat} : digit? c = some d ↔ IsDigit 16 c d := by
  constructor
  · intro h
    have hall : ∀ n < 103, ∀ d ∈ digit? (Char.ofNat n), d < 16 ∧
        (Char.ofNat n = Nat.digitChar d ∨ Char.ofNat n = (Nat.digitChar d).toUpper) := by decide
    have hc := hall c.toNat (toNat_lt_of_digit? h) d
    rw [Char.ofNat_toNat] at hc
    exact hc h
  · have hall : ∀ d < 16, digit? (Nat.digitChar d) = some d ∧
        digit? (Nat.digitChar d).toUpper = some d := by decide
    rintro ⟨hd, rfl | rfl⟩
    · exact (hall d hd).1
    · exact (hall d hd).2

theorem digitBelow?_eq_some_iff {radix : Nat} (hradix : radix ≤ 16) {c : Char} {d : Nat} :
    digitBelow? radix c = some d ↔ IsDigit radix c d := by
  rw [digitBelow?, Option.filter_eq_some_iff, digit?_eq_some_iff, decide_eq_true_eq]
  exact ⟨fun ⟨⟨_, hc⟩, hd⟩ => ⟨hd, hc⟩, fun ⟨hd, hc⟩ => ⟨⟨by omega, hc⟩, hd⟩⟩

/-- Behind a number, digits are read one by one. -/
theorem foldl_eq_some_iff {radix : Nat} (hradix : radix ≤ 16) {cs : List Char} {n m : Nat} :
    cs.foldl (fun value c => value.bind fun n => (digitBelow? radix c).map (n * radix + ·))
      (some n) = some m ↔
        ∃ ds, List.Forall₂ (IsDigit radix) cs ds ∧ ds.foldl (fun n d => n * radix + d) n = m := by
  have hnone : ∀ cs : List Char, cs.foldl (fun value c =>
      value.bind fun n => (digitBelow? radix c).map (n * radix + ·)) none = none := by
    intro cs
    induction cs with
    | nil => rfl
    | cons c cs ih => exact ih
  induction cs generalizing n with
  | nil => simp [eq_comm]
  | cons c cs ih =>
    rw [List.foldl_cons, Option.bind_some]
    simp only [List.forall₂_cons_left_iff]
    cases hc : digitBelow? radix c with
    | none =>
      rw [Option.map_none, hnone]
      simp only [reduceCtorEq, false_iff]
      rintro ⟨_, ⟨d, ds, hd, -, rfl⟩, -⟩
      rw [(digitBelow?_eq_some_iff hradix).2 hd] at hc
      cases hc
    | some d =>
      rw [Option.map_some]
      refine ih.trans ?_
      constructor
      · rintro ⟨ds, hds, h⟩
        exact ⟨d :: ds, ⟨d, ds, (digitBelow?_eq_some_iff hradix).1 hc, hds, rfl⟩, h⟩
      · rintro ⟨_, ⟨d', ds, hd, hds, rfl⟩, h⟩
        cases hc.symm.trans ((digitBelow?_eq_some_iff hradix).2 hd)
        exact ⟨ds, hds, h⟩

theorem foldl_eq_ofDigits (radix : Nat) (ds : List Nat) :
    ds.foldl (fun n d => n * radix + d) 0 = Nat.ofDigits radix ds.reverse := by
  rw [Nat.ofDigits_eq_foldr, List.foldr_reverse]
  simp only [Nat.cast_id, Nat.add_comm, Nat.mul_comm]

/-- **Digits are read as the number that they stand for.** -/
theorem ofRadix?_eq_some_iff {radix : Nat} (hradix : radix ≤ 16) {cs : List Char} {n : Nat} :
    ofRadix? radix cs = some n ↔ Spelled radix cs n := by
  unfold ofRadix? Spelled
  cases cs with
  | nil => simp
  | cons c cs =>
    rw [List.isEmpty_cons, if_neg Bool.false_ne_true, foldl_eq_some_iff hradix]
    simp only [foldl_eq_ofDigits, ne_eq, reduceCtorEq, not_false_eq_true, true_and]

end Numeral

/-! ## Numbers -/

namespace Yaml.Schema

open Numeral (Spelled)

/-- The number that `cs` stand for: digits behind the mark of their radix, or decimal digits, of
which the first is no zero unless it is the only one. -/
inductive Magnitude : List Char → Nat → Prop
  | hexadecimal {cs : List Char} {n : Nat} (h : Spelled 16 cs n) : Magnitude ('0' :: 'x' :: cs) n
  | octal {cs : List Char} {n : Nat} (h : Spelled 8 cs n) : Magnitude ('0' :: 'o' :: cs) n
  | binary {cs : List Char} {n : Nat} (h : Spelled 2 cs n) : Magnitude ('0' :: 'b' :: cs) n
  | decimal {cs : List Char} {n : Nat} (h : Spelled 10 cs n)
      (hzero : cs.head? = some '0' → cs = ['0']) : Magnitude cs n

/-- The integer that `cs` stand for. -/
inductive IsInteger : List Char → Int → Prop
  | unsigned {cs : List Char} {n : Nat} (h : Magnitude cs n) : IsInteger cs n
  | plus {cs : List Char} {n : Nat} (h : Magnitude cs n) : IsInteger ('+' :: cs) n
  | minus {cs : List Char} {n : Nat} (h : Magnitude cs n) : IsInteger ('-' :: cs) (-n)

theorem isDigit_of_spelled {cs : List Char} {n : Nat} (h : Spelled 10 cs n) :
    cs.all Char.isDigit = true := by
  have hall : ∀ d < 10, (Nat.digitChar d).isDigit = true ∧
      (Nat.digitChar d).toUpper.isDigit = true := by decide
  obtain ⟨-, ds, hds, -⟩ := h
  induction hds with
  | nil => rfl
  | cons hc _ ih =>
    rw [List.all_cons, ih, Bool.and_true]
    obtain ⟨hd, rfl | rfl⟩ := hc
    · exact (hall _ hd).1
    · exact (hall _ hd).2

/-- Of several digits, the first is a zero exactly when there is one too many. -/
theorem hasLeadingZero_iff {cs : List Char} {n : Nat} (h : Spelled 10 cs n) :
    hasLeadingZero cs = false ↔ (cs.head? = some '0' → cs = ['0']) := by
  have hdigits := isDigit_of_spelled h
  unfold hasLeadingZero
  split
  · cases hdigits
  · cases hdigits
  · dsimp only
    split
    · rw [List.all_cons, Bool.and_eq_true] at hdigits
      rw [hdigits.2]
      simp
    · next hother =>
      simp only [true_iff]
      intro hhead
      obtain ⟨r, rfl⟩ := List.head?_eq_some_iff.1 hhead
      cases r with
      | nil => rfl
      | cons d r => exact absurd rfl (hother d r)

theorem magnitude?_eq_some_iff {cs : List Char} {n : Nat} :
    magnitude? cs = some n ↔ Magnitude cs n := by
  unfold magnitude?
  constructor
  · intro h
    split at h
    · exact .hexadecimal ((Numeral.ofRadix?_eq_some_iff (by decide)).1 h)
    · exact .octal ((Numeral.ofRadix?_eq_some_iff (by decide)).1 h)
    · exact .binary ((Numeral.ofRadix?_eq_some_iff (by decide)).1 h)
    · split at h
      · cases h
      · next hzero =>
        have hspelled := (Numeral.ofRadix?_eq_some_iff (by decide)).1 h
        exact .decimal hspelled ((hasLeadingZero_iff hspelled).1 (Bool.eq_false_iff.2 hzero))
  · rintro (h | h | h | ⟨h, hzero⟩)
    · exact (Numeral.ofRadix?_eq_some_iff (by decide)).2 h
    · exact (Numeral.ofRadix?_eq_some_iff (by decide)).2 h
    · exact (Numeral.ofRadix?_eq_some_iff (by decide)).2 h
    · split
      · cases hzero rfl
      · cases hzero rfl
      · cases hzero rfl
      · rw [(hasLeadingZero_iff h).2 hzero, if_neg Bool.false_ne_true]
        exact (Numeral.ofRadix?_eq_some_iff (by decide)).2 h

/-- Numbers without a sign start with none. -/
theorem not_magnitude_of_sign {c : Char} {cs : List Char} {n : Nat} (hc : c = '+' ∨ c = '-') :
    ¬ Magnitude (c :: cs) n := by
  intro h
  cases h with
  | hexadecimal | octal | binary => rcases hc with hc | hc <;> cases hc
  | decimal h _ =>
    have hdigits := isDigit_of_spelled h
    rcases hc with rfl | rfl <;> cases hdigits

theorem nat?_eq_some_iff {bits n : Nat} {cs : List Char} : nat? bits cs = some n ↔
    (Magnitude cs n ∨ ∃ r, cs = '+' :: r ∧ Magnitude r n) ∧ n < Nat.pow 2 bits := by
  unfold nat?
  rw [Option.filter_eq_some_iff, magnitude?_eq_some_iff, decide_eq_true_eq]
  refine and_congr_left fun _ => ?_
  split
  · next r =>
    have hsign : ¬ Magnitude ('+' :: r) n := not_magnitude_of_sign (Or.inl rfl)
    simp [hsign]
  · next hplus =>
    rw [or_iff_left]
    rintro ⟨r, rfl, -⟩
    exact hplus r rfl

/-- **Integers are read as far as they fit into 64 bits.** -/
theorem int?_eq_some_iff {cs : List Char} {i : Int} :
    int? 64 cs = some i ↔ IsInteger cs i ∧ -0x8000000000000000 ≤ i ∧ i < 0x10000000000000000 := by
  have hlow : Nat.pow 2 (64 - 1) = 0x8000000000000000 := by decide
  have hhigh : Nat.pow 2 64 = 0x10000000000000000 := by decide
  have hunsigned : (nat? 64 cs).map Int.ofNat = some i ↔ ∃ n, (Magnitude cs n ∨
      ∃ r, cs = '+' :: r ∧ Magnitude r n) ∧ n < 0x10000000000000000 ∧ i = n := by
    simp only [Option.map_eq_some_iff, nat?_eq_some_iff, hhigh, and_assoc, Int.ofNat_eq_natCast,
      eq_comm (a := i)]
  unfold int?
  split
  · next r =>
    simp only [Option.bind_eq_bind, Option.pure_def, Option.map_eq_some_iff,
      Option.bind_eq_some_iff, Option.filter_eq_some_iff, magnitude?_eq_some_iff,
      decide_eq_true_eq, Option.some.injEq, hlow]
    constructor
    · rintro ⟨_, ⟨n, ⟨hn, hle⟩, rfl⟩, rfl⟩
      exact ⟨.minus hn, by omega, by omega⟩
    · rintro ⟨h | h | h, hle, hlt⟩
      · exact absurd h (not_magnitude_of_sign (Or.inr rfl))
      · exact ⟨_, ⟨_, ⟨h, by omega⟩, rfl⟩, rfl⟩
  · next hminus =>
    rw [hunsigned]
    constructor
    · rintro ⟨n, hn | ⟨r, rfl, hn⟩, hlt, rfl⟩
      · exact ⟨.unsigned hn, by omega, by omega⟩
      · exact ⟨.plus hn, by omega, by omega⟩
    · rintro ⟨h | h | h, hle, hlt⟩
      · exact ⟨_, Or.inl h, by omega, rfl⟩
      · exact ⟨_, Or.inr ⟨_, rfl, h⟩, by omega, rfl⟩
      · exact absurd rfl (hminus _)

end Yaml.Schema

end SecretMount
