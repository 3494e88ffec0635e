import SecretMount.Proofs.Scalars

/-!
# JSON texts, lexeme by lexeme

* `Json.Lexeme` : brackets and braces, marks, strings, keys, and numbers and words;
* `Json.Stage`, `Json.Lexeme.Step` : which lexeme may follow which, at which depth;
* `Json.Spells` : the texts of lexemes, with white space between them;
* `Form.lexemes` : the lexemes of a form. `Document.spells` : the texts of an object are texts of
  its lexemes.
-/

namespace SecretMount.Json

open Yaml.Plain (Word isWordly)

/-! ## Lexemes -/

inductive Bracket where
  | list
  | object
deriving DecidableEq

inductive Lexeme where
  | opens (b : Bracket)
  | closes (b : Bracket)
  | comma
  | colon
  /-- A number, a boolean or null. -/
  | word (s : String)
  | string (s : String)
  | key (k : String)
  /-- The end of the text. -/
  | stop

namespace Lexeme

/-- The texts of a lexeme. -/
inductive Written : Lexeme → Bytes → Prop
  | openList : Written (.opens .list) [91]
  | openObject : Written (.opens .object) [123]
  | closeList : Written (.closes .list) [93]
  | closeObject : Written (.closes .object) [125]
  | comma : Written .comma [44]
  | colon : Written .colon [58]
  | word {s : String} (h : Word s.toList) : Written (.word s) (Text.encode s)
  | string {s : String} {q : Bytes} (h : Spelled s.toList q) :
      Written (.string s) (34 :: (q ++ [34]))
  | key {k : String} {q : Bytes} (h : Spelled k.toList q) :
      Written (.key k) (34 :: (q ++ [34]))

end Lexeme

/-- What stands in front of a lexeme. -/
inductive Stage where
  /-- The start of the text, an opening bracket or brace, or a comma. -/
  | fresh
  | keyed
  /-- A colon. -/
  | ready
  /-- A value. -/
  | done
deriving DecidableEq

/-- A value may stand here. -/
def Stage.Open (st : Stage) : Prop := st = .fresh ∨ st = .ready

/-- A lexeme takes from one stage and depth to another. -/
inductive Lexeme.Step : Stage → Nat → Lexeme → Stage → Nat → Prop
  | opens {st : Stage} {n : Nat} (b : Bracket) (h : st.Open) : Step st n (.opens b) .fresh (n + 1)
  | closes {st : Stage} {n : Nat} (b : Bracket) (h : st = .fresh ∨ st = .done) :
      Step st (n + 1) (.closes b) .done n
  | comma {n : Nat} : Step .done (n + 1) .comma .fresh (n + 1)
  | word {st : Stage} {n : Nat} (s : String) (h : st.Open) : Step st (n + 1) (.word s) .done (n + 1)
  | string {st : Stage} {n : Nat} (s : String) (h : st.Open) :
      Step st (n + 1) (.string s) .done (n + 1)
  | key {n : Nat} (k : String) : Step .fresh (n + 1) (.key k) .keyed (n + 1)
  | colon {n : Nat} : Step .keyed (n + 1) .colon .ready (n + 1)

/-- The texts of lexemes that stand at a stage and depth. -/
inductive Spells : Stage → Nat → List Lexeme → Bytes → Prop
  | stop {b : Bytes} (hb : Blank b) : Spells .done 0 [.stop] b
  | cons {st st' : Stage} {n n' : Nat} {x : Lexeme} {xs : List Lexeme} {b s r : Bytes}
      (hb : Blank b) (hstep : x.Step st n st' n') (hx : x.Written s) (h : Spells st' n' xs r) :
      Spells st n (x :: xs) (b ++ (s ++ r))

theorem blank_append {b c : Bytes} (hb : Blank b) (hc : Blank c) : Blank (b ++ c) :=
  fun a ha => (List.mem_append.1 ha).elim (hb a) (hc a)

theorem Spells.blank {st : Stage} {n : Nat} {xs : List Lexeme} {b r : Bytes} (h : Spells st n xs r)
    (hb : Blank b) : Spells st n xs (b ++ r) := by
  cases h with
  | stop hc => exact .stop (blank_append hb hc)
  | cons hc hstep hx h =>
    rw [← List.append_assoc]
    exact .cons (blank_append hb hc) hstep hx h

/-- A lexeme in front of others. -/
theorem Spells.lexeme {st st' : Stage} {n n' : Nat} {x : Lexeme} {xs : List Lexeme} {s r : Bytes}
    (h : Spells st' n' xs r) (hstep : x.Step st n st' n') (hx : x.Written s) :
    Spells st n (x :: xs) (s ++ r) := .cons blank_nil hstep hx h

/-! ## Forms -/

/-- The text of a number, a boolean or null. -/
def Form.word : Form → String
  | .null => "null"
  | .bool b => if b then "true" else "false"
  | .integer i => toString i
  | .real _ text => (Text.decode? text).getD ""
  | _ => ""

mutual

/-- The lexemes of a form. -/
def Form.lexemes : Form → List Lexeme
  | .string s => [.string s]
  | .array items => .opens .list :: itemLexemes items
  | .object members => .opens .object :: memberLexemes members
  | .null => [.word (Form.word .null)]
  | .bool b => [.word (Form.word (.bool b))]
  | .integer i => [.word (Form.word (.integer i))]
  | .real token text => [.word (Form.word (.real token text))]

/-- The lexemes of items and their closing bracket. -/
def itemLexemes : List Form → List Lexeme
  | [] => [.closes .list]
  | f :: r => f.lexemes ++ moreItemLexemes r

/-- The same behind an item. -/
def moreItemLexemes : List Form → List Lexeme
  | [] => [.closes .list]
  | f :: r => .comma :: (f.lexemes ++ moreItemLexemes r)

/-- The lexemes of members and their closing brace. -/
def memberLexemes : List (String × Form) → List Lexeme
  | [] => [.closes .object]
  | (k, f) :: r => .key k :: .colon :: (f.lexemes ++ moreMemberLexemes r)

/-- The same behind a member. -/
def moreMemberLexemes : List (String × Form) → List Lexeme
  | [] => [.closes .object]
  | (k, f) :: r => .comma :: .key k :: .colon :: (f.lexemes ++ moreMemberLexemes r)

end

/-! ## Words -/

/-- `b` is the byte of a character of words. -/
def WordlyByte (b : UInt8) : Prop := ∃ a, String.utf8EncodeChar a = [b] ∧ isWordly a = true

theorem exists_digit {d : Nat} (h : d < 10) :
    ∃ a, String.utf8EncodeChar a = [digitByte d] ∧ isWordly a = true ∧ a.isDigit = true := by
  have hall : ∀ d < 10, String.utf8EncodeChar (Char.ofNat (48 + d)) = [digitByte d] ∧
      isWordly (Char.ofNat (48 + d)) = true ∧ (Char.ofNat (48 + d)).isDigit = true := by decide
  exact ⟨_, hall d h⟩

theorem wordlyByte_digits {ds : List Nat} (h : ∀ d ∈ ds, d < 10) :
    ∀ b ∈ ds.map digitByte, WordlyByte b := by
  intro b hb
  obtain ⟨d, hd, rfl⟩ := List.mem_map.1 hb
  obtain ⟨a, hencoded, ha, -⟩ := exists_digit (h d hd)
  exact ⟨a, hencoded, ha⟩

theorem exists_wordly : ∀ {s : Bytes}, (∀ b ∈ s, WordlyByte b) →
    ∃ cs, Text.bytes cs = s ∧ ∀ a ∈ cs, isWordly a = true
  | [], _ => ⟨[], rfl, nofun⟩
  | b :: s, h => by
    obtain ⟨⟨a, hencoded, ha⟩, hs⟩ := List.forall_mem_cons.1 h
    obtain ⟨cs, rfl, hcs⟩ := exists_wordly hs
    exact ⟨a :: cs, by rw [Text.bytes_cons, hencoded]; rfl, List.forall_mem_cons.2 ⟨ha, hcs⟩⟩

theorem SpelledFraction.wordly {ds : List Nat} {f : Bytes} (h : SpelledFraction ds f) :
    ∀ b ∈ f, WordlyByte b := by
  cases h with
  | none => exact nofun
  | digits _ hds =>
    exact List.forall_mem_cons.2 ⟨⟨'.', by decide, by decide⟩, wordlyByte_digits hds⟩

theorem SpelledExponent.wordly {x : Option (Bool × List Nat)} {e : Bytes}
    (h : SpelledExponent x e) : ∀ b ∈ e, WordlyByte b := by
  have hletter : ∀ letter : UInt8, letter = 101 ∨ letter = 69 → WordlyByte letter := by
    rintro _ (rfl | rfl)
    · exact ⟨'e', by decide, by decide⟩
    · exact ⟨'E', by decide, by decide⟩
  cases h with
  | none => exact nofun
  | unsigned h _ hds => exact List.forall_mem_cons.2 ⟨hletter _ h, wordlyByte_digits hds⟩
  | @signed _ negative _ h _ hds =>
    have hsign : WordlyByte (if negative then 45 else 43) := by
      cases negative
      · exact ⟨'+', by decide, by decide⟩
      · exact ⟨'-', by decide, by decide⟩
    exact List.forall_mem_cons.2 ⟨hletter _ h, List.forall_mem_cons.2
      ⟨hsign, wordlyByte_digits hds⟩⟩

namespace NumberToken

theorem Magnitude.exists_chars {t : NumberToken} {m : Bytes} (h : t.Magnitude m) :
    ∃ a x, Text.bytes (a :: x) = m ∧ a.isDigit = true ∧ ∀ b ∈ a :: x, isWordly b = true := by
  obtain ⟨hwhole, hf, he⟩ := h
  obtain ⟨d, ds, rfl⟩ := List.exists_cons_of_ne_nil hwhole.ne_nil
  obtain ⟨hd, hds⟩ := List.forall_mem_cons.1 hwhole.lt_ten
  obtain ⟨a, hencoded, ha, hdigit⟩ := exists_digit hd
  obtain ⟨x, hx, hwordly⟩ := exists_wordly (List.forall_mem_append.2 ⟨wordlyByte_digits hds,
    List.forall_mem_append.2 ⟨hf.wordly, he.wordly⟩⟩)
  refine ⟨a, x, ?_, hdigit, List.forall_mem_cons.2 ⟨ha, hwordly⟩⟩
  rw [Text.bytes_cons, hencoded, hx]
  rfl

/-- A number is a word. -/
theorem Spelled.exists_word {t : NumberToken} {s : Bytes} (h : t.Spelled s) :
    ∃ w : String, Text.encode w = s ∧ Word w.toList := by
  obtain ⟨m, hm, rfl⟩ := h
  obtain ⟨a, x, rfl, hdigit, hwordly⟩ := hm.exists_chars
  have halphanum : a.isAlphanum = true := by
    rw [Char.isAlphanum, hdigit, Bool.or_true]
  split
  · refine ⟨String.ofList ('-' :: a :: x), Text.encode_ofList _, ?_⟩
    rw [String.toList_ofList]
    exact ⟨List.forall_mem_cons.2 ⟨rfl, hwordly⟩, '-', a :: x, rfl, Or.inr ⟨rfl, a, x, rfl, hdigit⟩⟩
  · refine ⟨String.ofList (a :: x), Text.encode_ofList _, ?_⟩
    rw [String.toList_ofList]
    exact ⟨hwordly, a, x, rfl, Or.inl halphanum⟩

end NumberToken

theorem encode_inj {s t : String} (h : Text.encode s = Text.encode t) : s = t :=
  Option.some.inj ((Text.decode?_encode s).symm.trans ((congrArg Text.decode? h).trans
    (Text.decode?_encode t)))

theorem word_integer {i : Int} (h : Fits i) : Word (toString i).toList := by
  obtain ⟨negative, ds, hwhole, hint⟩ := NumberToken.exists_integer h
  obtain ⟨-, hencode⟩ := NumberToken.encode_of_int? hwhole hint
  have hspelled : NumberToken.Spelled ⟨negative, ds, [], none⟩ (Text.encode (toString i)) := by
    refine ⟨_, .mk hwhole .none .none, ?_⟩
    rw [hencode, NumberToken.bytes]
    cases negative <;> simp
  obtain ⟨w, hw, hword⟩ := hspelled.exists_word
  rwa [encode_inj hw] at hword

theorem written_real {t : NumberToken} {s : Bytes} (h : t.Spelled s) :
    Lexeme.Written (.word (Form.word (.real t s))) s := by
  obtain ⟨w, rfl, hword⟩ := h.exists_word
  rw [Form.word, Text.decode?_encode, Option.getD_some]
  exact .word hword

/-! ## Texts of forms -/

theorem WritesItems.more_eq {depth : Nat} {fs : List Form} {t : Bytes}
    (h : WritesItems depth fs t) : moreItemLexemes fs = .comma :: itemLexemes fs := by
  cases h <;> rfl

theorem WritesMembers.more_eq {depth : Nat} {fs : List (String × Form)} {t : Bytes}
    (h : WritesMembers depth fs t) : moreMemberLexemes fs = .comma :: memberLexemes fs := by
  cases h <;> rfl

/-- A key with its colon in front of a value. -/
theorem WritesKey.spells {k : String} {q r : Bytes} {n : Nat} {xs : List Lexeme}
    (hk : WritesKey k q) (h : Spells .ready (n + 1) xs r) :
    Spells .fresh (n + 1) (.key k :: .colon :: xs) (q ++ r) := by
  obtain ⟨hk, hbetween, hafter⟩ := hk
  have hcolon := Spells.cons hbetween .colon .colon (h.blank hafter)
  simpa using hcolon.lexeme (.key k) (.key hk)

mutual

/-- A text of a form within brackets or braces is one of its lexemes. -/
theorem Writes.spells : ∀ {depth : Nat} {f : Form} {s : Bytes} {st : Stage} {n : Nat}
    {xs : List Lexeme} {r : Bytes}, Writes depth f s → st.Open → Spells .done (n + 1) xs r →
      Spells st (n + 1) (f.lexemes ++ xs) (s ++ r)
  | _, _, _, _, _, _, _, .null, hst, h =>
    h.lexeme (.word "null" hst) (.word (.of_all rfl (by decide) rfl))
  | _, _, _, _, _, _, _, .true, hst, h =>
    h.lexeme (.word "true" hst) (.word (.of_all rfl (by decide) rfl))
  | _, _, _, _, _, _, _, .false, hst, h =>
    h.lexeme (.word "false" hst) (.word (.of_all rfl (by decide) rfl))
  | _, _, _, _, _, _, _, .integer hfits, hst, h =>
    h.lexeme (.word _ hst) (.word (word_integer hfits))
  | _, _, _, _, _, _, _, .real hspelled _, hst, h => h.lexeme (.word _ hst) (written_real hspelled)
  | _, _, _, _, _, _, _, .string hspelled, hst, h => h.lexeme (.string _ hst) (.string hspelled)
  | _, _, _, _, _, _, _, .emptyArray hb, hst, h => by
    have hclose := Spells.cons hb (.closes .list (Or.inl rfl)) .closeList h
    simpa [Form.lexemes, itemLexemes] using hclose.lexeme (.opens .list hst) .openList
  | _, _, _, _, _, _, _, .array hb hitems, hst, h => by
    have hopen := ((hitems.spells h).blank hb).lexeme (.opens .list hst) .openList
    simpa [Form.lexemes] using hopen
  | _, _, _, _, _, _, _, .emptyObject hb, hst, h => by
    have hclose := Spells.cons hb (.closes .object (Or.inl rfl)) .closeObject h
    simpa [Form.lexemes, memberLexemes] using hclose.lexeme (.opens .object hst) .openObject
  | _, _, _, _, _, _, _, .object hb hmembers, hst, h => by
    have hopen := ((hmembers.spells h).blank hb).lexeme (.opens .object hst) .openObject
    simpa [Form.lexemes] using hopen

theorem WritesItems.spells : ∀ {depth : Nat} {fs : List Form} {t : Bytes} {n : Nat}
    {xs : List Lexeme} {r : Bytes}, WritesItems depth fs t → Spells .done n xs r →
      Spells .fresh (n + 1) (itemLexemes fs ++ xs) (t ++ r)
  | _, _, _, _, _, _, .last hf hafter, h => by
    have hclose := Spells.cons hafter (.closes .list (Or.inr rfl)) .closeList h
    simpa [itemLexemes, moreItemLexemes] using hf.spells (Or.inl rfl) hclose
  | _, _, _, _, _, _, .more hf hafter hnext ht, h => by
    have hmore := Spells.cons hafter .comma .comma ((ht.spells h).blank hnext)
    simpa [itemLexemes, ht.more_eq] using hf.spells (Or.inl rfl) hmore

theorem WritesMembers.spells : ∀ {depth : Nat} {fs : List (String × Form)} {t : Bytes} {n : Nat}
    {xs : List Lexeme} {r : Bytes}, WritesMembers depth fs t → Spells .done n xs r →
      Spells .fresh (n + 1) (memberLexemes fs ++ xs) (t ++ r)
  | _, _, _, _, _, _, .last hk hf hafter, h => by
    have hclose := Spells.cons hafter (.closes .object (Or.inr rfl)) .closeObject h
    simpa [memberLexemes, moreMemberLexemes] using hk.spells (hf.spells (Or.inr rfl) hclose)
  | _, _, _, _, _, _, .more hk hf hafter hnext ht, h => by
    have hmore := Spells.cons hafter .comma .comma ((ht.spells h).blank hnext)
    simpa [memberLexemes, ht.more_eq] using hk.spells (hf.spells (Or.inr rfl) hmore)

end

/-- **The texts of an object are texts of its lexemes and the end.** -/
theorem Document.spells {fs : List (String × Form)} {s : Bytes} (h : Document (.object fs) s) :
    Spells .fresh 0 ((Form.object fs).lexemes ++ [.stop]) s := by
  obtain ⟨before, t, after, hbefore, hafter, hwrites, rfl⟩ := h
  refine Spells.blank ?_ hbefore
  cases hwrites with
  | emptyObject hb =>
    have hclose := Spells.cons hb (.closes .object (Or.inl rfl)) .closeObject (.stop hafter)
    simpa [Form.lexemes, memberLexemes] using
      hclose.lexeme (.opens .object (Or.inl rfl)) .openObject
  | object hb hmembers =>
    have hopen := ((hmembers.spells (.stop hafter)).blank hb).lexeme (.opens .object (Or.inl rfl))
      .openObject
    simpa [Form.lexemes] using hopen

end SecretMount.Json
