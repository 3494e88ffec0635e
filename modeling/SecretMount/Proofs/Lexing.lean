import Mathlib.Data.List.InsertIdx
import SecretMount.Proofs.Lexemes
import SecretMount.Yaml.Lexer

/-!
# The tokens of JSON texts

What the lexer makes of JSON texts. Each lexeme becomes a token, and in front of a key there may be
another one, which is not there when the key is too long or does not end on its line.

* `Lexer.Sheds` : keys are dropped, and nothing else changes;
* `Lexer.rest_of_skipSpace`, `Lexer.exists_resumes` : white space is passed over;
* `Lexer.Unread` : a lexer in front of lexemes. `Lexer.Reads` : the first of them is read, with what
  `Lexer.Emits` tells;
* `Lexer.reads_of_fetch` : each step of the lexer reads a lexeme.
-/

namespace SecretMount

/-- The token of a lexeme. -/
def Json.Lexeme.token : Json.Lexeme → Yaml.Token
  | .opens .list => .flowSequence
  | .opens .object => .flowMapping
  | .closes .list => .flowSequenceEnd
  | .closes .object => .flowMappingEnd
  | .comma => .flowEntry
  | .colon => .value
  | .word s => .scalar s .plain
  | .string s => .scalar s .double
  | .key k => .scalar k .double
  | .stop => .streamEnd

namespace Yaml.Lexer

open Json (Lexeme Stage Spells Blank)

/-! ## Keys that are dropped -/

/-- `t` is `s` apart from some keys, which `t` has dropped. -/
structure Sheds (s t : Lexer) : Prop where
  eq : t = { s with key := t.key, outerKeys := t.outerKeys }
  key : t.key = none ∨ t.key = s.key
  keys : ∀ p, some p ∈ t.key :: t.outerKeys → some p ∈ s.key :: s.outerKeys
  length : t.outerKeys.length = s.outerKeys.length

theorem Sheds.refl (s : Lexer) : s.Sheds s := ⟨rfl, Or.inr rfl, fun _ h => h, rfl⟩

theorem freshKey_eq_ok {c : Cursor} {k k' : Option OpenKey} (h : freshKey c k = .ok k') :
    k' = none ∨ k' = k := by
  unfold freshKey at h
  split at h
  · cases h
    exact Or.inl rfl
  · split at h
    · cases h
      exact Or.inr rfl
    · split at h
      · cases h
      · cases h
        exact Or.inl rfl

theorem mapM_freshKey {c : Cursor} : ∀ {ks ks' : List (Option OpenKey)},
    ks.mapM (freshKey c) = .ok ks' →
      ks'.length = ks.length ∧ ∀ p, some p ∈ ks' → some p ∈ ks
  | [], _, h => by
    cases h
    exact ⟨rfl, fun _ h => h⟩
  | k :: ks, _, h => by
    rw [List.mapM_cons] at h
    obtain ⟨k', hk, h⟩ := bind_eq_ok_iff.1 h
    obtain ⟨ks', hks, h⟩ := bind_eq_ok_iff.1 h
    cases h
    obtain ⟨hlength, hmem⟩ := mapM_freshKey hks
    refine ⟨by rw [List.length_cons, hlength, List.length_cons], fun p hp => ?_⟩
    rcases List.mem_cons.1 hp with rfl | hp
    · rcases freshKey_eq_ok hk with hnone | rfl
      · cases hnone
      · exact List.mem_cons_self
    · exact List.mem_cons_of_mem _ (hmem p hp)

theorem sheds_of_dropStaleKeys {s t : Lexer} (h : s.dropStaleKeys = .ok t) : s.Sheds t := by
  unfold dropStaleKeys at h
  split at h
  · obtain ⟨outer, houter, h⟩ := bind_eq_ok_iff.1 h
    obtain ⟨key, hkey, h⟩ := bind_eq_ok_iff.1 h
    cases h
    obtain ⟨hlength, hmem⟩ := mapM_freshKey houter
    refine ⟨rfl, freshKey_eq_ok hkey, fun p hp => ?_, by simp [hlength]⟩
    rcases List.mem_cons.1 hp with hp | hp
    · have hp : some p = key := hp
      rcases freshKey_eq_ok hkey with hnone | hsame
      · rw [← hp] at hnone
        cases hnone
      · rw [hp, hsame]
        exact List.mem_cons_self
    · exact List.mem_cons_of_mem _ (List.mem_reverse.1 (hmem p (List.mem_reverse.1 hp)))
  · cases h
    exact .refl s

theorem dropKey_eq_ok {s t : Lexer} (h : s.dropKey = .ok t) : t = { s with key := none } := by
  unfold dropKey at h
  split at h
  · split at h
    · cases h
    · cases h
      rfl
  · next hkey =>
    cases h
    rw [← hkey]

/-- What may be a key from here on starts with the next token. -/
theorem openKey_eq_ok {s t : Lexer} (h : s.openKey = .ok t) : ∃ k, t = { s with key := k } ∧
    (k = s.key ∨ ∃ p, k = some p ∧ p.position = s.count) := by
  unfold openKey at h
  split at h
  · obtain ⟨u, hu, h⟩ := bind_eq_ok_iff.1 h
    cases h
    rw [dropKey_eq_ok hu]
    exact ⟨_, rfl, Or.inr ⟨_, rfl, rfl⟩⟩
  · cases h
    exact ⟨_, rfl, Or.inl rfl⟩

/-! ## White space -/

/-- A solid character ends the white space, and so does the end of the text. -/
theorem sees_of_clear {c : Cursor} (h : Clear c.rest) :
    c.sees '#' = false ∧ c.seesAny isBreak = false ∧ c.sees '\ufeff' = false := by
  unfold Cursor.sees Cursor.seesAny
  cases hrest : c.rest with
  | nil => exact ⟨rfl, rfl, rfl⟩
  | cons a x =>
    obtain ⟨-, hbreak, hcomment, hmark⟩ := h a (by rw [hrest]; rfl)
    exact ⟨by simpa using hcomment, hbreak, by simpa using hmark⟩

theorem sees_of_blanks {c : Cursor} {w : Char} {ws x : List Char} (hrest : c.rest = w :: x)
    (h : Blanks (w :: ws)) :
    c.sees '#' = false ∧ c.seesAny isBreak = isBreak w ∧ c.sees '\ufeff' = false := by
  unfold Cursor.sees Cursor.seesAny
  rw [hrest]
  rcases h w List.mem_cons_self with rfl | rfl | rfl | rfl <;> exact ⟨rfl, rfl, rfl⟩

/-- White space is passed over. Outside of brackets and braces a tab may stay. -/
theorem rest_of_skipSpace : ∀ {fuel : Nat} {s t : Lexer} {ws r : List Char},
    s.skipSpace fuel = .ok t → s.cursor.rest = ws ++ r → Blanks ws → Clear r → ws.length < fuel →
      t = { s with cursor := t.cursor, keyAllowed := t.keyAllowed } ∧ s.cursor.Behind t.cursor ∧
        (t.cursor.rest = r ∨ s.inFlow = false ∧ t.cursor.rest.head? = some '\t')
  | 0, _, _, _, _, _, _, _, _, hfuel => absurd hfuel (Nat.not_lt_zero _)
  | fuel + 1, s, t, ws, r, h, hrest, hws, hr, hfuel => by
    have hmark : s.cursor.sees '\ufeff' = false := by
      cases ws with
      | nil => exact (sees_of_clear (hrest ▸ hr)).2.2
      | cons w ws => exact (sees_of_blanks hrest hws).2.2
    unfold skipSpace at h
    simp only [hmark, Bool.and_false, if_neg Bool.false_ne_true] at h
    obtain ⟨c, hc, h⟩ := bind_eq_ok_iff.1 h
    obtain ⟨hbehind, hcrest, -⟩ := Cursor.rest_of_skipWhile hc
    rw [hrest] at hcrest
    have hgap : ∀ a, (a == ' ' || (s.inFlow || !s.keyAllowed) && a == '\t') = true →
        isGap a = true := by
      intro a ha
      simp only [Bool.or_eq_true, Bool.and_eq_true] at ha
      rw [isGap, Bool.or_eq_true]
      exact ha.imp_right And.right
    rcases dropWhile_gaps hgap hr hws with hskip | ⟨w, vs, hskip, hw, hwvs, hlength⟩
    · rw [hskip] at hcrest
      obtain ⟨hcomment, hbreak, -⟩ := sees_of_clear (hcrest ▸ hr)
      rw [hcomment, if_neg Bool.false_ne_true] at h
      simp only [bind, Except.bind, pure, Except.pure, hbreak, if_neg Bool.false_ne_true] at h
      cases h
      exact ⟨rfl, hbehind, Or.inl hcrest⟩
    · rw [hskip] at hcrest
      obtain ⟨hcomment, hsees, -⟩ := sees_of_blanks hcrest hwvs
      rw [hcomment, if_neg Bool.false_ne_true] at h
      simp only [bind, Except.bind, pure, Except.pure, hsees] at h
      split at h
      · next hbreak =>
        obtain ⟨d, hd, h⟩ := bind_eq_ok_iff.1 h
        obtain ⟨⟨t', d'⟩, htake, hd⟩ := bind_eq_ok_iff.1 hd
        cases hd
        obtain ⟨hbehind', us, hrest', hus, hle⟩ :=
          Cursor.rest_of_takeBreak hcrest hbreak hwvs hr htake
        obtain ⟨heq, hbehind'', hend⟩ := rest_of_skipSpace h hrest' hus hr (by omega)
        exact ⟨heq, hbehind.trans (hbehind'.trans hbehind''), hend⟩
      · next hbreak =>
        -- Neither skipped nor the end of a line: only a tab is left, and no bracket is open.
        cases h
        refine ⟨rfl, hbehind, Or.inr ?_⟩
        rcases hwvs w List.mem_cons_self with rfl | rfl | rfl | rfl
        · cases hw
        · rw [hcrest]
          cases hflow : s.inFlow
          · exact ⟨rfl, rfl⟩
          · rw [hflow] at hw
            cases hw
        · exact absurd rfl hbreak
        · exact absurd rfl hbreak

/-! ## In front of a token -/

/-- `t` is `s` behind the white space in front of the next token, apart from keys that are dropped
and may start. -/
structure Resumes (s t : Lexer) : Prop where
  eq : t = { s with
    cursor := t.cursor, keyAllowed := t.keyAllowed, key := t.key, outerKeys := t.outerKeys }
  behind : s.cursor.Behind t.cursor
  key : t.key = none ∨ t.key = s.key
  length : t.outerKeys.length = s.outerKeys.length
  need : t.cursor.need 4 = .ok ()

/-- No token starts with a tab. -/
theorem token_tab {s t : Lexer} {x : List Char} (hrest : s.cursor.rest = '\t' :: x) :
    s.token '\t' x ≠ .ok t := by
  have hmark : s.cursor.atMark '-' = false ∧ s.cursor.atMark '.' = false := by
    unfold Cursor.atMark
    rw [hrest]
    simp
  have hplain : Plain.starts s.inFlow s.cursor.rest = false := by
    rw [hrest]
    simp [Plain.starts, endsWord, isGap]
  unfold token
  simp only [hmark, hplain]
  intro h
  simp at h
  cases h

theorem closeBlocks_of_nil {s : Lexer} (h : s.blocks = []) (column : Int) :
    s.closeBlocks column = s := by
  obtain ⟨cursor, queue, taken, blocks, keyAllowed, key, outerKeys, ended⟩ := s
  cases h
  simp [closeBlocks]

/-- The next token is read behind white space. -/
theorem exists_resumes {s u : Lexer} {ws r : List Char} (hrest : s.cursor.rest = ws ++ r)
    (hws : Blanks ws) (hr : Clear r) (hroom : s.cursor.rest.length ≤ s.cursor.total)
    (hblocks : s.blocks = []) (h : s.fetch = .ok u) :
    ∃ t, s.Resumes t ∧ t.cursor.rest = r ∧ (r = [] → t.finish = .ok u) ∧
      ∀ a x, r = a :: x → t.token a x = .ok u := by
  have hfuel : ws.length < s.cursor.fuel := by
    rw [hrest, List.length_append] at hroom
    unfold Cursor.fuel
    omega
  unfold fetch at h
  obtain ⟨s₁, hspace, h⟩ := bind_eq_ok_iff.1 h
  obtain ⟨hs₁, hbehind, hend⟩ := rest_of_skipSpace hspace hrest hws hr hfuel
  obtain ⟨t, hdrop, h⟩ := bind_eq_ok_iff.1 h
  have hsheds := sheds_of_dropStaleKeys hdrop
  have hcursor : t.cursor = s₁.cursor := by rw [hsheds.eq]
  have hnone : t.blocks = [] := by
    rw [hsheds.eq, hs₁]
    exact hblocks
  rw [closeBlocks_of_nil hnone] at h
  obtain ⟨⟨⟩, hneed, h⟩ := bind_eq_ok_iff.1 h
  have hresumes : s.Resumes t := by
    refine ⟨?_, hcursor ▸ hbehind, ?_, ?_, hneed⟩
    · rw [hsheds.eq, hs₁]
    · rw [hs₁] at hsheds
      exact hsheds.key
    · rw [hs₁] at hsheds
      exact hsheds.length
  have htrest : t.cursor.rest = r := by
    rcases hend with hend | ⟨-, htab⟩
    · rw [hcursor, hend]
    · obtain ⟨x, hx⟩ := List.head?_eq_some_iff.1 htab
      rw [hcursor, hx] at h
      exact absurd h (token_tab (hcursor ▸ hx))
  refine ⟨t, hresumes, htrest, ?_, ?_⟩
  · intro hnil
    rw [htrest, hnil] at h
    exact h
  · intro a x hcons
    rw [htrest, hcons] at h
    exact h

theorem atMark_eq_false {c : Cursor} {x : List Char} {a b : Char} (hrest : c.rest = a :: x)
    (h : a ≠ b) : c.atMark b = false := by
  unfold Cursor.atMark
  rw [hrest]
  simp [h]

/-! ## Lexemes -/

/-- The tokens that are read but not yet taken. -/
def tokens (s : Lexer) : List Token := s.queue.map Placed.token

/-- The lexer stands before the lexemes `xs`, at a stage and depth, or before the start of them. -/
structure Unread (s : Lexer) (st : Stage) (n : Nat) (xs : List Lexeme) : Prop where
  ended : s.ended = false
  blocks : s.blocks = []
  depth : s.outerKeys.length = n
  room : s.cursor.rest.length ≤ s.cursor.total
  unbroken : ∀ a ∈ s.cursor.rest, Unbroken a
  text : ∃ r, Spells st n xs r ∧ Holds s.cursor.cut s.cursor.rest r
  key : st = .fresh → s.key = none

/-- The cursor has passed some characters, and `r` is left. -/
structure Passes (c d : Cursor) (r : Bytes) : Prop where
  behind : c.Behind d
  shorter : d.rest.length < c.rest.length
  holds : Holds d.cut d.rest r

theorem Unread.next {s u : Lexer} {st st' : Stage} {n n' : Nat} {xs ys : List Lexeme} {r : Bytes}
    (hs : s.Unread st n xs) (hpasses : Passes s.cursor u.cursor r) (hspells : Spells st' n' ys r)
    (hended : u.ended = false) (hblocks : u.blocks = []) (hdepth : u.outerKeys.length = n')
    (hkey : st' = .fresh → u.key = none) : u.Unread st' n' ys := by
  refine ⟨hended, hblocks, hdepth, ?_, fun a ha => hs.unbroken a (hpasses.behind.rest.mem ha),
    ⟨r, hspells, hpasses.holds⟩, hkey⟩
  rw [hpasses.behind.total]
  exact Nat.le_trans hpasses.behind.rest.length_le hs.room

/-- What a lexeme adds to the tokens. A colon may also put one in front of the key. -/
inductive Emits (s u : Lexer) : Lexeme → Prop
  | token {x : Lexeme} (hx : x ≠ .colon) (htokens : u.tokens = s.tokens ++ [x.token])
      (hkey : ∀ k, x = .key k → ∀ p, u.key = some p → p.position = s.count) : Emits s u x
  | value (htokens : u.tokens = s.tokens ++ [.value]) : Emits s u .colon
  | keyValue {p : OpenKey} (hp : s.key = some p)
      (htokens : u.tokens = s.tokens.insertIdx (p.position - s.taken) .key ++ [.value]) :
      Emits s u .colon

namespace Resumes

variable {s t : Lexer} (h : s.Resumes t)

include h

theorem queue : t.queue = s.queue := by rw [h.eq]

theorem taken : t.taken = s.taken := by rw [h.eq]

theorem blocks : t.blocks = s.blocks := by rw [h.eq]

theorem ended : t.ended = s.ended := by rw [h.eq]

theorem count : t.count = s.count := by rw [Lexer.count, h.queue, h.taken, Lexer.count]

/-- The cursor behind a single character. -/
theorem passes {a : Char} {x : List Char} {r : Bytes} (hrest : t.cursor.rest = a :: x)
    (hx : Holds s.cursor.cut x r) : Passes s.cursor (t.cursor.skipMany 1) r := by
  have hskip : (t.cursor.skipMany 1).rest = x := by
    rw [Cursor.skipMany, hrest]
    rfl
  refine ⟨h.behind.trans (.skipMany 1 t.cursor), ?_, ?_⟩
  · have hle := h.behind.rest.length_le
    rw [hrest, List.length_cons] at hle
    rw [hskip]
    omega
  · rw [hskip]
    rw [← h.behind.cut] at hx
    exact hx

end Resumes

/-- A lexeme is read. -/
structure Reads (s u : Lexer) (x : Lexeme) (st : Stage) (n : Nat) (xs : List Lexeme) : Prop where
  unread : u.Unread st n xs
  taken : u.taken = s.taken
  shorter : u.cursor.rest.length < s.cursor.rest.length
  emits : Emits s u x

section Single

variable {s t u : Lexer} {st : Stage} {n : Nat} {xs ys : List Lexeme} {a : Char} {x : List Char}
  {r : Bytes}

/-- What is read behind white space, where the fields that no lexeme changes stay. -/
theorem Resumes.reads {y : Lexeme} {st' : Stage} {n' : Nat} (ht : s.Resumes t)
    (hs : s.Unread st n ys) (hended : u.ended = t.ended) (hblocks : u.blocks = t.blocks)
    (htaken : u.taken = t.taken) (hpasses : Passes s.cursor u.cursor r)
    (hspells : Spells st' n' xs r) (hdepth : u.outerKeys.length = n')
    (hkey : st' = .fresh → u.key = none) (hemits : Emits s u y) : s.Reads u y st' n' xs :=
  ⟨hs.next hpasses hspells (hended.trans (ht.ended.trans hs.ended))
    (hblocks.trans (ht.blocks.trans hs.blocks)) hdepth hkey, htaken.trans ht.taken,
    hpasses.shorter, hemits⟩

theorem reads_of_flowStart {b : Json.Bracket} (hs : s.Unread st n ys) (ht : s.Resumes t)
    (hrest : t.cursor.rest = a :: x) (hx : Holds s.cursor.cut x r)
    (hspells : Spells .fresh (n + 1) xs r)
    (h : t.flowStart (Lexeme.opens b).token = .ok u) : s.Reads u (.opens b) .fresh (n + 1) xs := by
  unfold flowStart at h
  obtain ⟨v, hv, h⟩ := bind_eq_ok_iff.1 h
  obtain ⟨k, rfl, -⟩ := openKey_eq_ok hv
  cases h
  refine ht.reads hs rfl rfl rfl (ht.passes hrest hx) hspells ?_ (fun _ => rfl)
    (.token nofun ?_ nofun)
  · exact congrArg (· + 1) (ht.length.trans hs.depth)
  · simp [tokens, emitSkip, emit, allowKey, ht.queue]

theorem reads_of_flowEnd {b : Json.Bracket} (hs : s.Unread st (n + 1) ys) (ht : s.Resumes t)
    (hrest : t.cursor.rest = a :: x) (hx : Holds s.cursor.cut x r) (hspells : Spells .done n xs r)
    (h : t.flowEnd (Lexeme.closes b).token = .ok u) : s.Reads u (.closes b) .done n xs := by
  unfold flowEnd at h
  obtain ⟨v, hv, h⟩ := bind_eq_ok_iff.1 h
  have hdepth : t.outerKeys.length = n + 1 := ht.length.trans hs.depth
  rw [dropKey_eq_ok hv] at h
  cases houter : t.outerKeys with
  | nil =>
    rw [houter] at hdepth
    cases hdepth
  | cons k ks =>
    simp only [houter] at h
    cases h
    refine ht.reads hs rfl rfl rfl (ht.passes hrest hx) hspells ?_ nofun (.token nofun ?_ nofun)
    · rw [houter] at hdepth
      exact Nat.succ.inj hdepth
    · simp [tokens, emitSkip, emit, allowKey, ht.queue]

theorem reads_of_flowEntry (hs : s.Unread st n ys) (ht : s.Resumes t)
    (hrest : t.cursor.rest = a :: x) (hx : Holds s.cursor.cut x r) (hspells : Spells .fresh n xs r)
    (h : t.flowEntry = .ok u) : s.Reads u .comma .fresh n xs := by
  unfold flowEntry at h
  obtain ⟨v, hv, h⟩ := bind_eq_ok_iff.1 h
  rw [dropKey_eq_ok hv] at h
  cases h
  refine ht.reads hs rfl rfl rfl (ht.passes hrest hx) hspells (ht.length.trans hs.depth)
    (fun _ => rfl) (.token nofun ?_ nofun)
  simp [tokens, emitSkip, emit, allowKey, ht.queue, Lexeme.token]

theorem inFlow_eq (h : t.outerKeys.length = n + 1) : t.inFlow = true := by
  unfold inFlow
  cases houter : t.outerKeys with
  | nil =>
    rw [houter] at h
    cases h
  | cons _ _ => rfl

theorem openBlock_of_inFlow {s : Lexer} (h : s.inFlow = true) (mark : Mark) (position : Nat)
    (t : Token) : s.openBlock mark position t = s := by
  unfold openBlock
  rw [h]
  rfl

theorem reads_of_value (hs : s.Unread st (n + 1) ys) (ht : s.Resumes t)
    (hrest : t.cursor.rest = a :: x) (hx : Holds s.cursor.cut x r)
    (hspells : Spells .ready (n + 1) xs r) (h : t.value = .ok u) :
    s.Reads u .colon .ready (n + 1) xs := by
  have hdepth : t.outerKeys.length = n + 1 := ht.length.trans hs.depth
  have hflow : t.inFlow = true := inFlow_eq hdepth
  unfold value at h
  split at h
  · next p hp =>
    have hkey : s.key = some p := by
      rcases ht.key with hnone | hsame
      · rw [hp] at hnone
        cases hnone
      · rw [← hsame, hp]
    have hopen := openBlock_of_inFlow (s := { t with key := none }.emitAt p.position .key p.mark)
      hflow p.mark p.position .blockMapping
    rw [hopen] at h
    cases h
    refine ht.reads hs rfl rfl rfl (ht.passes hrest hx) hspells hdepth nofun (.keyValue hkey ?_)
    simp [tokens, emitSkip, emit, emitAt, allowKey, ht.queue, ht.taken, List.map_insertIdx]
  · obtain ⟨-, -, h⟩ := bind_eq_ok_iff.1 h
    rw [openBlock_of_inFlow hflow] at h
    cases h
    refine ht.reads hs rfl rfl rfl (ht.passes hrest hx) hspells hdepth nofun (.value ?_)
    simp [tokens, emitSkip, emit, allowKey, ht.queue]

theorem reads_of_quoted {w : Lexeme} {cs : List Char} {q : Bytes} (hs : s.Unread st n ys)
    (ht : s.Resumes t) (hrest : t.cursor.rest = '"' :: x) (hq : Json.Spelled cs q)
    (hx : Holds s.cursor.cut x (q ++ 34 :: r)) {st' : Stage} (hst' : st' ≠ .fresh)
    (hspells : Spells st' n xs r) (hw : w.token = .scalar (String.ofList cs) .double)
    (hkey : ∀ k, w = .key k → s.key = none) (h : t.quoted '"' .double = .ok u) :
    s.Reads u w st' n xs := by
  unfold quoted inKey at h
  obtain ⟨v, hv, h⟩ := bind_eq_ok_iff.1 h
  obtain ⟨k, rfl, hopen⟩ := openKey_eq_ok hv
  obtain ⟨⟨tok, c⟩, hread, h⟩ := bind_eq_ok_iff.1 h
  obtain ⟨⟨text, d⟩, hquoted, hread⟩ := bind_eq_ok_iff.1 hread
  cases hread
  cases h
  have hunbroken : ∀ a ∈ x, Unbroken a := fun a ha => hs.unbroken a
    (ht.behind.rest.mem (hrest ▸ List.mem_cons_of_mem _ ha))
  rw [← ht.behind.cut] at hx
  obtain ⟨rfl, hd, hbehind⟩ := Quoted.text_of_read hquoted hrest hq hx hunbroken
  have hlength : t.cursor.skip.rest.length < t.cursor.rest.length := by
    rw [Cursor.rest_skip hrest, hrest]
    exact Nat.lt_succ_self _
  have hpasses : Passes s.cursor c r :=
    ⟨ht.behind.trans ((Cursor.Behind.skip t.cursor).trans hbehind),
      Nat.lt_of_le_of_lt hbehind.rest.length_le
        (Nat.lt_of_lt_of_le hlength ht.behind.rest.length_le), hd⟩
  refine ht.reads hs rfl rfl rfl hpasses hspells (ht.length.trans hs.depth)
    (fun h => absurd h hst') (.token ?_ ?_ ?_)
  · rintro rfl
    cases hw
  · rw [hw]
    simp [tokens, emit, allowKey, ht.queue]
  · intro k' hk' p hp
    have hp : k = some p := hp
    rcases hopen with hsame | ⟨p', hp', hposition⟩
    · rw [hsame] at hp
      rcases ht.key with hnone | hkept
      · rw [hnone] at hp
        cases hp
      · rw [hkept, hkey k' hk'] at hp
        cases hp
    · rw [hp] at hp'
      cases hp'
      rw [hposition, ht.count]

/-- Behind a value within brackets or braces there is a mark. -/
theorem closing_of_spells (h : Spells .done (n + 1) xs r) : ∃ b m s,
    r = b ++ (String.utf8EncodeChar m ++ s) ∧ Blank b ∧ Plain.Closing m ∧
      Spells .done (n + 1) xs (String.utf8EncodeChar m ++ s) := by
  cases h with
  | cons hb hstep hx h =>
    cases hstep with
    | closes b hst =>
      cases hx with
      | closeList =>
        exact ⟨_, ']', _, rfl, hb, Or.inr (Or.inl rfl), h.lexeme (.closes .list hst) .closeList⟩
      | closeObject =>
        exact ⟨_, '\x7d', _, rfl, hb, Or.inr (Or.inr rfl),
          h.lexeme (.closes .object hst) .closeObject⟩
    | comma =>
      cases hx
      exact ⟨_, ',', _, rfl, hb, Or.inl rfl, h.lexeme .comma .comma⟩
    | opens b hst => rcases hst with hst | hst <;> cases hst
    | word s hst => rcases hst with hst | hst <;> cases hst
    | string s hst => rcases hst with hst | hst <;> cases hst

theorem reads_of_plain {w : String} (hs : s.Unread st (n + 1) ys) (ht : s.Resumes t)
    (hword : Plain.Word w.toList)
    (hx : Holds t.cursor.cut t.cursor.rest (Text.encode w ++ r))
    (hspells : Spells .done (n + 1) xs r) (h : t.plain = .ok u) :
    s.Reads u (.word w) .done (n + 1) xs := by
  unfold plain at h
  obtain ⟨v, hv, h⟩ := bind_eq_ok_iff.1 h
  obtain ⟨k, rfl, -⟩ := openKey_eq_ok hv
  obtain ⟨⟨text, d, broken⟩, hread, h⟩ := bind_eq_ok_iff.1 h
  cases h
  have hdepth : t.outerKeys.length = n + 1 := ht.length.trans hs.depth
  have hflow : { t with key := k }.inFlow = true := inFlow_eq hdepth
  rw [hflow] at hread
  have hroom : t.cursor.rest.length ≤ t.cursor.total := by
    rw [ht.behind.total]
    exact Nat.le_trans ht.behind.rest.length_le hs.room
  obtain ⟨b, m, s', rfl, hb, hm, hspells⟩ := closing_of_spells hspells
  obtain ⟨rfl, hbehind, hlength, hd⟩ := Plain.text_of_read hread hword hb hm hx hroom
  have hpasses : Passes s.cursor d _ :=
    ⟨ht.behind.trans hbehind, Nat.lt_of_lt_of_le hlength ht.behind.rest.length_le, hd⟩
  refine ht.reads hs rfl rfl rfl hpasses hspells hdepth nofun (.token nofun ?_ nofun)
  simp [tokens, emit, allowKey, ht.queue, Lexeme.token]

/-- The end of the text is a token too. -/
theorem ended_of_finish (ht : s.Resumes t) (hblocks : s.blocks = []) (h : t.finish = .ok u) :
    u.ended = true ∧ u.tokens = s.tokens ++ [.streamEnd] ∧ u.taken = s.taken := by
  obtain ⟨v, hv, hnone, hqueue, htaken⟩ : ∃ v : Lexer, (do
      let s ← v.closeAll
      return { s.emit .streamEnd s.cursor.mark with ended := true }) = Except.ok u ∧
      v.blocks = [] ∧ v.queue = s.queue ∧ v.taken = s.taken := by
    unfold finish at h
    split at h
    · exact ⟨t, h, ht.blocks.trans hblocks, ht.queue, ht.taken⟩
    · exact ⟨_, h, ht.blocks.trans hblocks, ht.queue, ht.taken⟩
  unfold closeAll at hv
  rw [closeBlocks_of_nil hnone] at hv
  obtain ⟨w, hw, hv⟩ := bind_eq_ok_iff.1 hv
  obtain ⟨w', hw', hw⟩ := bind_eq_ok_iff.1 hw
  rw [dropKey_eq_ok hw'] at hw
  cases hw
  cases hv
  exact ⟨rfl, by simp [tokens, emit, allowKey, hqueue], htaken⟩

/-! ## The next token -/

/-- What starts with a lexeme starts with a solid character. -/
theorem exists_solid {y : Lexeme} {s : Bytes} (h : y.Written s) :
    ∃ a r, s = String.utf8EncodeChar a ++ r ∧ Solid a := by
  unfold Solid
  cases h with
  | openList => exact ⟨'[', [], by decide, by decide⟩
  | openObject => exact ⟨'\x7b', [], by decide, by decide⟩
  | closeList => exact ⟨']', [], by decide, by decide⟩
  | closeObject => exact ⟨'\x7d', [], by decide, by decide⟩
  | comma => exact ⟨',', [], by decide, by decide⟩
  | colon => exact ⟨':', [], by decide, by decide⟩
  | @word w h =>
    obtain ⟨a, x, hchars, -⟩ := h.starts
    obtain ⟨hgap, hbreak, -, -, hcomment⟩ :=
      Plain.wordly_spec (h.wordly a (hchars ▸ List.mem_cons_self))
    refine ⟨a, Text.bytes x, ?_, hgap, hbreak, hcomment, ?_⟩
    · rw [← Text.bytes_cons, ← hchars]
      rfl
    · rintro rfl
      have hwordly := h.wordly '\ufeff' (hchars ▸ List.mem_cons_self)
      revert hwordly
      decide
  | string _ => exact ⟨'"', _, rfl, by decide⟩
  | key _ => exact ⟨'"', _, rfl, by decide⟩

/-- A word is read as a plain scalar. -/
theorem plain_of_token {w : String} (hneed : t.cursor.need 4 = .ok ())
    (hrest : t.cursor.rest = a :: x) (hword : Plain.Word w.toList)
    (hx : Holds t.cursor.cut t.cursor.rest (Text.encode w ++ r)) (h : t.token a x = .ok u) :
    t.plain = .ok u := by
  obtain ⟨a', x', hrest', hstart⟩ := hword.head hneed hx
  rw [hrest] at hrest'
  obtain ⟨rfl, rfl⟩ := List.cons.inj hrest'
  have hplain : t.token a x = if Plain.starts t.inFlow t.cursor.rest then t.plain
      else t.cursor.fail .noToken .nextToken t.cursor.mark := by
    have hmark := hword.not_mark hneed hx
    rw [Bool.or_eq_false_iff, Cursor.atDocumentMark, Bool.or_eq_false_iff] at hmark
    obtain ⟨⟨hdash, hdot⟩, -⟩ := hmark
    rcases hstart with halphanum | ⟨rfl, d, y, rfl, hdigit⟩
    · have hne := Plain.ne_of_all (l := ['%', '[', '\x7b', ']', '\x7d', ',', '-', '?', ':', '*',
        '&', '!', '|', '>', '\'', '"']) (by decide) halphanum
      simp only [List.forall_mem_cons] at hne
      simp [token, hdash, hdot, hne]
    · have hword' : endsWord (d :: y) = false := by
        have hne := Plain.ne_of_all (l := [' ', '\t', '\n', '\r', '\u0085', '\u2028', '\u2029'])
          (by decide) hdigit
        simp only [List.forall_mem_cons] at hne
        simp [endsWord, isGap, isBreak, hne]
      simp [token, hdash, hdot, hword']
  rw [hplain] at h
  split at h
  · exact h
  · cases h

/-- The token at the cursor is that of the lexeme. -/
theorem reads_of_token {y : Lexeme} {st' : Stage} {n' : Nat} {w w' : Bytes}
    (hs : s.Unread st n (y :: ys)) (ht : s.Resumes t) (hrest : t.cursor.rest = a :: x)
    (hstep : y.Step st n st' n') (hy : y.Written w) (hw : w = String.utf8EncodeChar a ++ w')
    (hx : Holds s.cursor.cut x (w' ++ r)) (hspells : Spells st' n' ys r)
    (h : t.token a x = .ok u) : s.Reads u y st' n' ys := by
  have hmark : ∀ b, a ≠ b → t.cursor.atMark b = false := fun b hb => atMark_eq_false hrest hb
  cases hy with
  | openList =>
    obtain ⟨rfl, rfl⟩ := Text.utf8EncodeChar_append_inj (c := '[') (r := []) hw
    cases hstep
    have heq : t.token '[' x = t.flowStart .flowSequence := by
      simp [token, hmark '-' (by decide), hmark '.' (by decide)]
    exact reads_of_flowStart hs ht hrest hx hspells (heq.symm.trans h)
  | openObject =>
    obtain ⟨rfl, rfl⟩ := Text.utf8EncodeChar_append_inj (c := '\x7b') (r := []) hw
    cases hstep
    have heq : t.token '\x7b' x = t.flowStart .flowMapping := by
      simp [token, hmark '-' (by decide), hmark '.' (by decide)]
    exact reads_of_flowStart hs ht hrest hx hspells (heq.symm.trans h)
  | closeList =>
    obtain ⟨rfl, rfl⟩ := Text.utf8EncodeChar_append_inj (c := ']') (r := []) hw
    cases hstep
    have heq : t.token ']' x = t.flowEnd .flowSequenceEnd := by
      simp [token, hmark '-' (by decide), hmark '.' (by decide)]
    exact reads_of_flowEnd hs ht hrest hx hspells (heq.symm.trans h)
  | closeObject =>
    obtain ⟨rfl, rfl⟩ := Text.utf8EncodeChar_append_inj (c := '\x7d') (r := []) hw
    cases hstep
    have heq : t.token '\x7d' x = t.flowEnd .flowMappingEnd := by
      simp [token, hmark '-' (by decide), hmark '.' (by decide)]
    exact reads_of_flowEnd hs ht hrest hx hspells (heq.symm.trans h)
  | comma =>
    obtain ⟨rfl, rfl⟩ := Text.utf8EncodeChar_append_inj (c := ',') (r := []) hw
    cases hstep
    have heq : t.token ',' x = t.flowEntry := by
      simp [token, hmark '-' (by decide), hmark '.' (by decide)]
    exact reads_of_flowEntry hs ht hrest hx hspells (heq.symm.trans h)
  | colon =>
    obtain ⟨rfl, rfl⟩ := Text.utf8EncodeChar_append_inj (c := ':') (r := []) hw
    cases hstep
    have hflow : t.inFlow = true := inFlow_eq (ht.length.trans hs.depth)
    have heq : t.token ':' x = t.value := by
      simp [token, hmark '-' (by decide), hmark '.' (by decide), hflow]
    exact reads_of_value hs ht hrest hx hspells (heq.symm.trans h)
  | @word v hword =>
    cases hstep
    have hx' : Holds t.cursor.cut t.cursor.rest (Text.encode v ++ r) := by
      rw [hw, hrest, ht.behind.cut, List.append_assoc]
      exact hx.prepend a
    exact reads_of_plain hs ht hword hx' hspells
      (plain_of_token ht.need hrest hword hx' h)
  | @string v q hq =>
    obtain ⟨rfl, rfl⟩ := Text.utf8EncodeChar_append_inj (c := '"') (r := q ++ [34]) hw
    have heq : t.token '"' x = t.quoted '"' .double := by
      simp [token, hmark '-' (by decide), hmark '.' (by decide)]
    rw [List.append_assoc] at hx
    cases hstep
    exact reads_of_quoted hs ht hrest hq hx (by decide) hspells
      (by rw [String.ofList_toList]; rfl) nofun (heq.symm.trans h)
  | @key v q hq =>
    obtain ⟨rfl, rfl⟩ := Text.utf8EncodeChar_append_inj (c := '"') (r := q ++ [34]) hw
    have heq : t.token '"' x = t.quoted '"' .double := by
      simp [token, hmark '-' (by decide), hmark '.' (by decide)]
    rw [List.append_assoc] at hx
    cases hstep
    exact reads_of_quoted hs ht hrest hq hx (by decide) hspells
      (by rw [String.ofList_toList]; rfl) (fun _ _ => hs.key rfl) (heq.symm.trans h)

/-- **What a lexer reads in front of a lexeme is the token of the lexeme, or it fails.** -/
theorem reads_of_fetch {y : Lexeme} (hs : s.Unread st n (y :: ys)) (h : s.fetch = .ok u) :
    (y = .stop ∧ ys = [] ∧ u.ended = true ∧ u.tokens = s.tokens ++ [.streamEnd] ∧
        u.taken = s.taken) ∨
      ∃ st' n', y.Step st n st' n' ∧ s.Reads u y st' n' ys := by
  obtain ⟨r, hspells, hholds⟩ := hs.text
  cases hspells with
  | stop hb =>
    obtain ⟨ws, z, hrest, hws, hz⟩ := Holds.blank (r := []) hb (by rwa [List.append_nil])
    obtain rfl : z = [] := hz.elim Holds.nil And.left
    obtain ⟨t, ht, -, hfinish, -⟩ := exists_resumes hrest hws nofun hs.room hs.blocks h
    exact Or.inl ⟨rfl, rfl, ended_of_finish ht hs.blocks (hfinish rfl)⟩
  | @cons _ st' _ n' _ _ b w r hb hstep hy hspells =>
    obtain ⟨a, w', rfl, ha⟩ := exists_solid hy
    rw [List.append_assoc] at hholds
    obtain ⟨ws, z, hrest, hws, hclear, hz⟩ := hholds.clear hb ha
    obtain ⟨t, ht, htrest, -, htoken⟩ := exists_resumes hrest hws hclear hs.room hs.blocks h
    rcases hz with ⟨x, rfl, hx⟩ | ⟨rfl, hcut⟩
    · exact Or.inr ⟨st', n', hstep,
        reads_of_token hs ht htrest hstep hy rfl hx hspells (htoken a x rfl)⟩
    · rcases Cursor.need_eq_ok ht.need with hnone | hlong
      · rw [ht.behind.cut] at hnone
        exact absurd hnone hcut
      · rw [htrest] at hlong
        exact absurd hlong (Nat.not_succ_le_zero 3)

end Single

end Yaml.Lexer

end SecretMount
