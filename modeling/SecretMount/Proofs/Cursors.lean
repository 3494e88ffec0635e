import SecretMount.Proofs.Integers
import SecretMount.Proofs.Sources
import SecretMount.Yaml.Scalar.Fold

/-!
# What a cursor stands before

The bytes of the characters in front of a cursor are known, or only the start of them when its text
breaks off. A reader that needs more than there is fails, so what is read without a fault is read as
if all of it were there.

* `Yaml.Holds` : what is left, by its bytes. `Holds.cons`, `Holds.blank` : by its characters;
* `Cursor.Behind` : a cursor further on in the same text;
* `Yaml.Blanks`, `Yaml.Solid` : the white space of JSON texts, and what ends it in YAML texts too;
* `Fold.rest_of_read` : all white space in front of a solid character is read at once.
-/

namespace SecretMount.Yaml

/-! ## Texts -/

/-- The bytes of `rest` are `r`, or the start of `r` when the text breaks off. -/
def Holds (cut : Option Fault) (rest : List Char) (r : Bytes) : Prop :=
  ∃ tail, Text.bytes rest ++ tail = r ∧ (cut = none → tail = [])

namespace Holds

variable {cut : Option Fault} {rest : List Char} {r : Bytes}

theorem cons {a : Char} (h : Holds cut rest (String.utf8EncodeChar a ++ r)) (hne : rest ≠ []) :
    ∃ x, rest = a :: x ∧ Holds cut x r := by
  obtain ⟨tail, hbytes, htail⟩ := h
  obtain ⟨x, rfl, hx⟩ := Text.cons_of_bytes_append hne hbytes
  exact ⟨x, rfl, tail, hx, htail⟩

theorem prepend (h : Holds cut rest r) (a : Char) :
    Holds cut (a :: rest) (String.utf8EncodeChar a ++ r) := by
  obtain ⟨tail, hbytes, htail⟩ := h
  exact ⟨tail, by rw [Text.bytes_cons, List.append_assoc, hbytes], htail⟩

theorem byte {a : Char} {b : UInt8} (hencoded : String.utf8EncodeChar a = [b])
    (h : Holds cut rest (b :: r)) (hne : rest ≠ []) : ∃ x, rest = a :: x ∧ Holds cut x r := by
  refine cons (a := a) ?_ hne
  rwa [hencoded, List.singleton_append]

theorem cut_ne_none (h : Holds cut [] r) (hr : r ≠ []) : cut ≠ none := by
  rintro rfl
  obtain ⟨tail, hbytes, htail⟩ := h
  rw [htail rfl] at hbytes
  exact hr hbytes.symm

theorem append : ∀ {cs rest : List Char}, Holds cut rest (Text.bytes cs ++ r) →
    cut = none ∨ cs.length ≤ rest.length → ∃ x, rest = cs ++ x ∧ Holds cut x r
  | [], rest, h, _ => ⟨rest, rfl, h⟩
  | a :: cs, rest, h, hlength => by
    rw [Text.bytes_cons, List.append_assoc] at h
    obtain ⟨b, s, hencoded, -⟩ := Text.head_utf8EncodeChar a
    have hne : rest ≠ [] := by
      rintro rfl
      have hcut := h.cut_ne_none (by rw [hencoded]; exact List.cons_ne_nil _ _)
      exact hlength.elim hcut (Nat.not_succ_le_zero _)
    obtain ⟨x, rfl, hx⟩ := h.cons hne
    obtain ⟨y, rfl, hy⟩ := append hx (hlength.imp_right Nat.le_of_succ_le_succ)
    exact ⟨y, rfl, hy⟩

theorem nil (h : Holds cut rest []) : rest = [] := by
  obtain ⟨tail, hbytes, -⟩ := h
  have hlength := Text.length_le_bytes rest
  rw [(List.append_eq_nil_iff.1 hbytes).1] at hlength
  exact List.length_eq_zero_iff.1 (Nat.le_zero.1 hlength)

end Holds

/-! ## Places -/

namespace Cursor

/-- `d` is as far on as `c` or further, in the same text. -/
structure Behind (c d : Cursor) : Prop where
  cut : d.cut = c.cut
  total : d.total = c.total
  rest : d.rest <:+ c.rest

namespace Behind

theorem refl (c : Cursor) : c.Behind c := ⟨rfl, rfl, List.suffix_refl _⟩

theorem trans {c d e : Cursor} (h : c.Behind d) (h' : d.Behind e) : c.Behind e :=
  ⟨h'.cut.trans h.cut, h'.total.trans h.total, h'.rest.trans h.rest⟩

theorem skipMany (n : Nat) (c : Cursor) : c.Behind (c.skipMany n) :=
  ⟨rfl, rfl, List.drop_suffix n c.rest⟩

theorem skip (c : Cursor) : c.Behind c.skip := ⟨rfl, rfl, List.drop_suffix 1 c.rest⟩

theorem newLine {n : Nat} {r : List Char} {c : Cursor} (h : r <:+ c.rest) :
    c.Behind (c.newLine n r) := ⟨rfl, rfl, h⟩

end Behind

theorem rest_skip {c : Cursor} {a : Char} {x : List Char} (h : c.rest = a :: x) :
    c.skip.rest = x := by
  rw [skip, h]
  rfl

theorem need_eq_ok {n : Nat} {c : Cursor} (h : c.need n = .ok ()) :
    c.cut = none ∨ n ≤ c.rest.length := by
  unfold need at h
  split at h
  · split at h
    · cases h
    · next hle =>
      rw [List.length_take] at hle
      exact Or.inr (by omega)
  · next hcut => exact Or.inl hcut

/-- Where more is needed, there is more. -/
theorem ne_nil_of_need {n : Nat} {c : Cursor} {r : Bytes} (hneed : c.need (n + 1) = .ok ())
    (h : Holds c.cut c.rest r) (hr : r ≠ []) : c.rest ≠ [] := by
  intro hrest
  rcases need_eq_ok hneed with hcut | hlength
  · rw [hrest] at h
    exact h.cut_ne_none hr hcut
  · rw [hrest] at hlength
    exact Nat.not_succ_le_zero n hlength

end Cursor

/-! ## White space -/

/-- White space of JSON texts. -/
def Blanks (ws : List Char) : Prop := ∀ a ∈ ws, a = ' ' ∨ a = '\t' ∨ a = '\n' ∨ a = '\r'

/-- Characters that are no white space of YAML texts and start no comment. -/
def Solid (a : Char) : Prop :=
  isGap a = false ∧ isBreak a = false ∧ a ≠ '#' ∧ a ≠ '\ufeff'

/-- What is left starts with a solid character, if there is anything. -/
def Clear (r : List Char) : Prop := ∀ a ∈ r.head?, Solid a

theorem utf8EncodeChar_of_space {b : UInt8} (h : b = 32 ∨ b = 10 ∨ b = 9 ∨ b = 13) :
    ∃ a, String.utf8EncodeChar a = [b] ∧ (a = ' ' ∨ a = '\t' ∨ a = '\n' ∨ a = '\r') := by
  rcases h with rfl | rfl | rfl | rfl
  · exact ⟨' ', by decide, by decide⟩
  · exact ⟨'\n', by decide, by decide⟩
  · exact ⟨'\t', by decide, by decide⟩
  · exact ⟨'\r', by decide, by decide⟩

/-- White space, and what is behind it unless the text breaks off. -/
theorem Holds.blank {cut : Option Fault} {r : Bytes} : ∀ {b : Bytes} {rest : List Char},
    Json.Blank b → Holds cut rest (b ++ r) → ∃ ws x, rest = ws ++ x ∧ Blanks ws ∧
      (Holds cut x r ∨ x = [] ∧ cut ≠ none)
  | [], rest, _, h => ⟨[], rest, rfl, nofun, Or.inl h⟩
  | b :: s, rest, hb, h => by
    obtain ⟨hspace, hs⟩ := List.forall_mem_cons.1 hb
    obtain ⟨a, hencoded, ha⟩ := utf8EncodeChar_of_space hspace
    by_cases hne : rest = []
    · subst hne
      exact ⟨[], [], rfl, nofun, Or.inr ⟨rfl, h.cut_ne_none (List.cons_ne_nil _ _)⟩⟩
    · rw [List.cons_append, ← List.singleton_append, ← hencoded] at h
      obtain ⟨x, rfl, hx⟩ := h.cons hne
      obtain ⟨ws, y, rfl, hws, hy⟩ := Holds.blank hs hx
      refine ⟨a :: ws, y, rfl, ?_, hy⟩
      rintro d (_ | ⟨_, hd⟩)
      · exact ha
      · exact hws d hd

/-- White space in front of a solid character. -/
theorem Holds.clear {cut : Option Fault} {rest : List Char} {b r : Bytes} {a : Char}
    (hb : Json.Blank b) (h : Holds cut rest (b ++ (String.utf8EncodeChar a ++ r))) (ha : Solid a) :
    ∃ ws x, rest = ws ++ x ∧ Blanks ws ∧ Clear x ∧
      ((∃ y, x = a :: y ∧ Holds cut y r) ∨ x = [] ∧ cut ≠ none) := by
  obtain ⟨ws, x, rfl, hws, hx | ⟨rfl, hcut⟩⟩ := h.blank hb
  · by_cases hne : x = []
    · subst hne
      refine ⟨ws, [], rfl, hws, nofun, Or.inr ⟨rfl, hx.cut_ne_none ?_⟩⟩
      obtain ⟨_, _, hencoded, -⟩ := Text.head_utf8EncodeChar a
      rw [hencoded]
      exact List.cons_ne_nil _ _
    · obtain ⟨y, rfl, hy⟩ := hx.cons hne
      exact ⟨ws, a :: y, rfl, hws, by rintro _ ⟨⟩; exact ha, Or.inl ⟨y, rfl, hy⟩⟩
  · exact ⟨ws, [], rfl, hws, nofun, Or.inr ⟨rfl, hcut⟩⟩

/-- The end of a line within white space. -/
theorem Cursor.rest_of_takeBreak {c d : Cursor} {t ws r : List Char} {w : Char}
    (hrest : c.rest = w :: (ws ++ r)) (hbreak : isBreak w = true) (hws : Blanks (w :: ws))
    (hr : Clear r) (h : c.takeBreak = .ok (t, d)) : c.Behind d ∧ ∃ vs, d.rest = vs ++ r ∧
      Blanks vs ∧ vs.length ≤ ws.length := by
  have hws' : Blanks ws := fun a ha => hws a (List.mem_cons_of_mem w ha)
  unfold takeBreak at h
  obtain ⟨-, -, h⟩ := bind_eq_ok_iff.1 h
  split at h
  · next x heq =>
    cases h
    rw [heq] at hrest
    obtain ⟨rfl, hx⟩ := List.cons.inj hrest
    cases ws with
    | nil =>
      rw [List.nil_append] at hx
      have hsolid := hr '\n' (by rw [← hx]; rfl)
      exact absurd hsolid.2.1 (by decide)
    | cons v ws =>
      obtain ⟨rfl, rfl⟩ := List.cons.inj hx
      refine ⟨.newLine (heq ▸ ⟨['\r', '\n'], rfl⟩), ws, rfl, fun a ha => hws' a
        (List.mem_cons_of_mem _ ha), by simp⟩
  · next b x hpair heq =>
    rw [heq] at hrest
    obtain ⟨rfl, rfl⟩ := List.cons.inj hrest
    rw [if_pos hbreak] at h
    cases h
    exact ⟨.newLine (heq ▸ ⟨[b], rfl⟩), ws, rfl, hws', Nat.le_refl _⟩
  · next heq =>
    rw [heq] at hrest
    cases hrest

theorem Cursor.rest_of_skipWhile {p : Char → Bool} {c d : Cursor} (h : c.skipWhile p = .ok d) :
    c.Behind d ∧ d.rest = c.rest.dropWhile p ∧ d.need 1 = .ok () := by
  unfold skipWhile takeWhile at h
  obtain ⟨⟨taken, e⟩, he, h⟩ := bind_eq_ok_iff.1 h
  obtain ⟨⟨⟩, hneed, he⟩ := bind_eq_ok_iff.1 he
  cases he
  cases h
  refine ⟨.skipMany _ c, ?_, hneed⟩
  calc c.rest.drop (c.rest.takeWhile p).length
    _ = (c.rest.takeWhile p ++ c.rest.dropWhile p).drop (c.rest.takeWhile p).length := by
      rw [List.takeWhile_append_dropWhile]
    _ = c.rest.dropWhile p := List.drop_left

/-- What is left of white space behind the gaps at its start. -/
theorem dropWhile_gaps {p : Char → Bool} (hp : ∀ a, p a = true → isGap a = true) {r : List Char}
    (hr : Clear r) : ∀ {ws : List Char}, Blanks ws → (ws ++ r).dropWhile p = r ∨
      ∃ w vs, (ws ++ r).dropWhile p = w :: (vs ++ r) ∧ p w = false ∧ Blanks (w :: vs) ∧
        vs.length < ws.length
  | [], _ => by
    cases r with
    | nil => exact Or.inl rfl
    | cons a x =>
      have hgap : ¬ p a = true := fun h => by
        have hsolid := (hr a rfl).1
        rw [hp a h] at hsolid
        cases hsolid
      exact Or.inl (List.dropWhile_cons_of_neg hgap)
  | w :: ws, hws => by
    by_cases hw : p w = true
    · rw [List.cons_append, List.dropWhile_cons_of_pos hw]
      refine (dropWhile_gaps hp hr fun a ha => hws a (List.mem_cons_of_mem w ha)).imp_right ?_
      rintro ⟨v, vs, heq, hv, hvs, hlength⟩
      exact ⟨v, vs, heq, hv, hvs, Nat.lt_succ_of_lt hlength⟩
    · exact Or.inr ⟨w, ws, List.dropWhile_cons_of_neg hw, Bool.eq_false_iff.2 hw, hws,
        Nat.lt_succ_self _⟩

/-- All white space in front of a solid character is read. -/
theorem Fold.rest_of_read {column : Nat} {start : Mark} : ∀ {fuel : Nat} {f g : Fold}
    {c d : Cursor} {ws r : List Char}, read column start fuel f c = .ok (g, d) →
      c.rest = ws ++ r → Blanks ws → Clear r → ws.length < fuel →
        c.Behind d ∧ d.rest = r ∧ d.need 1 = .ok ()
  | 0, _, _, _, _, _, _, _, _, _, _, hfuel => absurd hfuel (Nat.not_lt_zero _)
  | fuel + 1, f, g, c, d, ws, r, h, hrest, hws, hr, hfuel => by
    unfold read at h
    obtain ⟨⟨⟩, hneed, h⟩ := bind_eq_ok_iff.1 h
    cases ws with
    | nil =>
      rw [List.nil_append] at hrest
      split at h
      · cases h
        exact ⟨.refl c, hrest, hneed⟩
      · next b x heq =>
        obtain ⟨hgap, hbreak, -, -⟩ := hr b (by rw [← hrest, heq]; rfl)
        rw [hgap, hbreak] at h
        cases h
        exact ⟨.refl c, hrest, hneed⟩
    | cons w ws =>
      have hnext : ∀ {f' : Fold} {e : Cursor} {vs : List Char}, c.Behind e → e.rest = vs ++ r →
          Blanks vs → vs.length < fuel → read column start fuel f' e = .ok (g, d) →
            c.Behind d ∧ d.rest = r ∧ d.need 1 = .ok () := fun hbehind he hvs hlength h =>
        (rest_of_read h he hvs hr hlength).imp_left hbehind.trans
      have hfuel' : ws.length < fuel := Nat.lt_of_succ_lt_succ hfuel
      have hskip : ∀ {f' : Fold}, read column start fuel f' c.skip = .ok (g, d) →
          c.Behind d ∧ d.rest = r ∧ d.need 1 = .ok () :=
        hnext (.skip c) (Cursor.rest_skip hrest)
          (fun a ha => hws a (List.mem_cons_of_mem w ha)) hfuel'
      split at h
      · next heq =>
        rw [heq] at hrest
        cases hrest
      · next b x heq =>
        rw [heq] at hrest
        obtain ⟨rfl, rfl⟩ := List.cons.inj hrest
        split at h
        · split at h
          · split at h
            · cases h
            · exact hskip h
          · exact hskip h
        · next hgap =>
          split at h
          · next hbreak =>
            obtain ⟨⟨t, e⟩, hbreak', h⟩ := bind_eq_ok_iff.1 h
            obtain ⟨hbehind, vs, he, hvs, hlength⟩ :=
              Cursor.rest_of_takeBreak heq hbreak hws hr hbreak'
            simp only at h
            split at h
            · exact hnext hbehind he hvs (by omega) h
            · exact hnext hbehind he hvs (by omega) h
          · next hbreak =>
            rcases hws b List.mem_cons_self with rfl | rfl | rfl | rfl
            · exact absurd rfl hgap
            · exact absurd rfl hgap
            · exact absurd rfl hbreak
            · exact absurd rfl hbreak

end SecretMount.Yaml
