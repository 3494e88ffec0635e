import Mathlib.Data.List.DropRight
import Mathlib.Data.List.TakeWhile
import SecretMount.Text.Blank

/-!
# Blanks at the ends of texts

* `Text.blanks` : the characters of the property White_Space (`Text.isBlank_iff`);
* `Text.Trimmed` : a text that does not start or end with a blank;
* `Text.Trims` : what is left of a text that may, and `Text.trims_iff` : this is what trimming
  leaves;
* `Text.trim_isEmpty_iff` : nothing is left of blanks.
-/

namespace SecretMount.Text

def blanks : List Char :=
  ['\t', '\n', '\x0b', '\x0c', '\r', ' ', '\u0085', '\u00a0', '\u1680', '\u2000', '\u2001', '\u2002',
    '\u2003', '\u2004', '\u2005', '\u2006', '\u2007', '\u2008', '\u2009', '\u200a', '\u2028',
    '\u2029', '\u202f', '\u205f', '\u3000']

theorem isBlank_iff {c : Char} : isBlank c = true ↔ c ∈ blanks := by
  simp only [isBlank, blanks, Bool.or_eq_true, Bool.and_eq_true, decide_eq_true_eq, beq_iff_eq,
    List.mem_cons, List.not_mem_nil, or_false, ← Char.toNat_inj, Char.reduceToNat]
  omega

theorem isBlank_eq_false_iff {c : Char} : isBlank c = false ↔ c ∉ blanks := by
  rw [← isBlank_iff, Bool.not_eq_true]

/-- A text with no blank at its start and none at its end. -/
structure Trimmed (s : String) : Prop where
  head : ∀ c ∈ s.toList.head?, c ∉ blanks
  last : ∀ c ∈ s.toList.getLast?, c ∉ blanks

/-- `t` is `s` without the blanks at its ends. -/
structure Trims (s t : String) : Prop where
  trimmed : Trimmed t
  exists_blanks : ∃ before after : List Char, s.toList = before ++ t.toList ++ after ∧
    (∀ c ∈ before, c ∈ blanks) ∧ ∀ c ∈ after, c ∈ blanks

/-- A text that does not start or end with a blank does not start or end with several. -/
theorem Trimmed.eq_nil {t : String} (h : Trimmed t) {before middle after : List Char}
    (ht : t.toList = before ++ middle ++ after) (hbefore : ∀ c ∈ before, c ∈ blanks)
    (hafter : ∀ c ∈ after, c ∈ blanks) : before = [] ∧ after = [] := by
  obtain ⟨hhead, hlast⟩ := h
  rw [ht] at hhead hlast
  constructor
  · cases before with
    | nil => rfl
    | cons c r => exact absurd (hbefore c List.mem_cons_self) (hhead c rfl)
  · cases hend : after.getLast? with
    | none => exact List.getLast?_eq_none_iff.1 hend
    | some c =>
      have hnot : c ∉ blanks := hlast c (by rw [List.getLast?_append, hend]; rfl)
      exact absurd (hafter c (List.mem_of_getLast? hend)) hnot

/-! ## Trimming -/

theorem head?_trimChars {cs : List Char} {c : Char} (h : (trimChars cs).head? = some c) :
    c ∉ blanks := by
  have hprefix : trimChars cs <+: cs.dropWhile isBlank := List.rdropWhile_prefix isBlank _
  obtain ⟨rest, hrest⟩ := hprefix
  have hhead : (cs.dropWhile isBlank).head? = some c := by
    rw [← hrest, List.head?_append, h, Option.some_or]
  have hnot := List.head?_dropWhile_not isBlank cs
  rw [hhead] at hnot
  exact isBlank_eq_false_iff.1 hnot

theorem getLast?_trimChars {cs : List Char} {c : Char} (h : (trimChars cs).getLast? = some c) :
    c ∉ blanks := by
  rw [trimChars, List.getLast?_reverse] at h
  have hnot := List.head?_dropWhile_not isBlank (cs.dropWhile isBlank).reverse
  rw [h] at hnot
  exact isBlank_eq_false_iff.1 hnot

theorem trimmed_trim (s : String) : Trimmed (trim s) where
  head c hc := head?_trimChars (by rwa [trim, String.toList_ofList] at hc)
  last c hc := getLast?_trimChars (by rwa [trim, String.toList_ofList] at hc)

theorem mem_blanks_of_takeWhile {cs : List Char} {c : Char} (h : c ∈ cs.takeWhile isBlank) :
    c ∈ blanks :=
  isBlank_iff.1 (List.all_eq_true.1 List.all_takeWhile c h)

theorem trims_trim (s : String) : Trims s (trim s) := by
  refine ⟨trimmed_trim s, s.toList.takeWhile isBlank,
    ((s.toList.dropWhile isBlank).reverse.takeWhile isBlank).reverse, ?_,
    fun c => mem_blanks_of_takeWhile, fun c hc => mem_blanks_of_takeWhile (List.mem_reverse.1 hc)⟩
  rw [trim, String.toList_ofList, trimChars, List.append_assoc, ← List.reverse_append,
    List.takeWhile_append_dropWhile, List.reverse_reverse, List.takeWhile_append_dropWhile]

/-- The blanks in front of a list that does not start with one are all that is dropped. -/
theorem dropWhile_append_of_head {before cs : List Char} (hbefore : ∀ c ∈ before, c ∈ blanks)
    (hcs : ∀ c ∈ cs.head?, c ∉ blanks) : (before ++ cs).dropWhile isBlank = cs := by
  rw [List.dropWhile_append_of_pos fun c hc => isBlank_iff.2 (hbefore c hc)]
  cases cs with
  | nil => rfl
  | cons c cs =>
    have hc := isBlank_eq_false_iff.2 (hcs c rfl)
    exact List.dropWhile_cons_of_neg (by simp [hc])

theorem trim_of_trims {s t : String} (h : Trims s t) : trim s = t := by
  obtain ⟨⟨hhead, hlast⟩, before, after, hs, hbefore, hafter⟩ := h
  have hreverse : ∀ c ∈ after.reverse, c ∈ blanks := fun c hc => hafter c (List.mem_reverse.1 hc)
  apply String.toList_inj.1
  rw [trim, String.toList_ofList, trimChars, hs, List.append_assoc]
  cases ht : t.toList with
  | nil =>
    -- nothing is left, and all blanks are dropped from the start
    have hall : ∀ c ∈ before ++ ([] ++ after), isBlank c = true := by
      intro c hc
      rcases List.mem_append.1 hc with hc | hc
      · exact isBlank_iff.2 (hbefore c hc)
      · exact isBlank_iff.2 (hafter c hc)
    rw [List.dropWhile_eq_nil_iff.2 hall]
    rfl
  | cons c cs =>
    rw [ht] at hhead hlast
    have hend : ∀ a ∈ (c :: cs).reverse.head?, a ∉ blanks := by
      rwa [List.head?_reverse]
    rw [dropWhile_append_of_head hbefore (by simpa using hhead), List.reverse_append,
      dropWhile_append_of_head hreverse hend, List.reverse_reverse]

/-- **What trimming leaves.** -/
theorem trims_iff {s t : String} : Trims s t ↔ trim s = t := by
  constructor
  · exact trim_of_trims
  · rintro rfl
    exact trims_trim s

theorem Trimmed.trim_eq {s : String} (h : Trimmed s) : trim s = s :=
  trim_of_trims ⟨h, [], [], by simp, nofun, nofun⟩

/-- Nothing is left of a text exactly when it is nothing but blanks. -/
theorem trim_isEmpty_iff {s : String} :
    (trim s).isEmpty = true ↔ ∀ c ∈ s.toList, c ∈ blanks := by
  rw [String.isEmpty_iff, ← trims_iff]
  constructor
  · rintro ⟨-, before, after, hs, hbefore, hafter⟩ c hc
    rw [hs, String.toList_empty, List.append_nil, List.mem_append] at hc
    exact hc.elim (hbefore c) (hafter c)
  · intro h
    exact ⟨⟨by simp, by simp⟩, s.toList, [], by simp, h, nofun⟩

end SecretMount.Text
