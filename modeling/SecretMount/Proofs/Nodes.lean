import SecretMount.Proofs.Tokens
import SecretMount.Yaml.Document

/-!
# The nodes of JSON texts

* `Parser.Before`, `Parser.Facing` : how far a parser is, its events and a bound of the tokens that
  are left to it. There is a rule for each of its steps;
* `Parser.node_cases`, `Parser.flowItem_eq_ok`, `Parser.flowEntry_eq_ok` : what is read at the
  tokens of JSON texts;
* `Parser.element` : what the items of lists and the entries of mappings have in common;
* `Yaml.Shows` : the nodes and events of forms;
* `Parser.shows_of_node` : what is read from the lexemes of a form is one of its nodes;
* `Shows.within`, `Shows.ofEvents` : its events make up this node.
-/

namespace SecretMount.Yaml

open Json (Form Lexeme itemLexemes moreItemLexemes memberLexemes moreMemberLexemes)

/-! ## Steps of parsers -/

theorem Parsing.bind_eq_ok {α β : Type} {x : Parsing α} {f : α → Parsing β} {p q : Parser} {b : β}
    (h : (x >>= f).run p = .ok b q) : ∃ a r, x.run p = .ok a r ∧ (f a).run r = .ok b q := by
  change EStateM.bind x f p = .ok b q at h
  unfold EStateM.bind at h
  split at h
  · next a r hx => exact ⟨a, r, hx, h⟩
  · cases h

namespace Parser

variable {p q : Parser} {es : List Event} {n : Nat} {t t' : Placed} {xs : List Lexeme} {u : Unit}

/-- The events are `es`, and the lexemes `xs` are at most `n` tokens. -/
structure Before (p : Parser) (es : List Event) (n : Nat) (xs : List Lexeme) : Prop where
  lexer : p.lexer.Before xs
  events : p.events = es
  left : p.lexer.left ≤ n

/-- The next token is `t`, and behind it there are the lexemes `xs`. -/
structure Facing (p : Parser) (es : List Event) (n : Nat) (t : Placed) (xs : List Lexeme) :
    Prop where
  lexer : p.lexer.Facing t xs
  events : p.events = es
  left : p.lexer.left ≤ n

theorem run_peek (h : peek.run p = .ok t q) :
    p.lexer.peek = .ok (t, q.lexer) ∧ q.events = p.events := by
  unfold peek at h
  obtain ⟨s, r, hget, h⟩ := Parsing.bind_eq_ok h
  cases hget
  split at h
  · next t' lexer hpeek =>
    obtain ⟨_, _, hset, h⟩ := Parsing.bind_eq_ok h
    cases hset
    cases h
    exact ⟨hpeek, rfl⟩
  · cases h

theorem Before.peek (hp : p.Before es n xs) (hxs : xs ≠ []) (h : peek.run p = .ok t q) :
    ∃ ys, Takes xs t.token ys ∧ q.Facing es n t ys := by
  obtain ⟨hpeek, hevents⟩ := run_peek h
  obtain ⟨-, hleft, ys, htake, hfacing⟩ := Lexer.facing_of_peek hp.lexer hxs hpeek
  exact ⟨ys, htake, hfacing, hevents.trans hp.events, Nat.le_trans hleft hp.left⟩

theorem Facing.peek (hp : p.Facing es n t xs) (h : peek.run p = .ok t' q) :
    t' = t ∧ q.Facing es n t xs := by
  obtain ⟨hpeek, hevents⟩ := run_peek h
  obtain ⟨rfl, hfacing, hleft⟩ := hp.lexer.peek hpeek
  exact ⟨rfl, hfacing, hevents.trans hp.events, Nat.le_trans hleft hp.left⟩

theorem Facing.advance (hp : p.Facing es n t xs) (h : advance.run p = .ok u q) :
    ∃ m < n, q.Before es m xs := by
  cases h
  exact ⟨_, Nat.lt_of_lt_of_le hp.lexer.left hp.left, hp.lexer.before, hp.events, Nat.le_refl _⟩

theorem Before.emit {e : Event} (hp : p.Before es n xs) (h : (emit e).run p = .ok u q) :
    q.Before (e :: es) n xs := by
  cases h
  exact ⟨hp.lexer, congrArg (e :: ·) hp.events, hp.left⟩

theorem Facing.emit {e : Event} (hp : p.Facing es n t xs) (h : (emit e).run p = .ok u q) :
    q.Facing (e :: es) n t xs := by
  cases h
  exact ⟨hp.lexer, congrArg (e :: ·) hp.events, hp.left⟩

theorem Facing.takes {x : Lexeme} {ys : List Lexeme} (hp : p.Facing es n t ys)
    (h : Takes (x :: xs) t.token ys) (hx : ∀ k, x ≠ .key k) :
    t.token = x.token ∧ p.Facing es n t xs := by
  generalize t.token = a at h
  cases h with
  | token _ _ => exact ⟨rfl, hp⟩
  | key k _ => exact absurd rfl (hx k)

theorem Facing.readAnchor {a : Option String} (hp : p.Facing es n t xs)
    (hanchor : ∀ name, t.token ≠ .anchor name) (h : readAnchor.run p = .ok a q) :
    a = none ∧ q.Facing es n t xs := by
  unfold Parser.readAnchor at h
  obtain ⟨t', r, hpeek, h⟩ := Parsing.bind_eq_ok h
  obtain ⟨rfl, hr⟩ := hp.peek hpeek
  split at h
  · next name heq => exact absurd heq (hanchor name)
  · cases h
    exact ⟨rfl, hr⟩

theorem Facing.readTag {a : Option (Option String × Bytes × Mark)} (hp : p.Facing es n t xs)
    (htag : ∀ handle suffix, t.token ≠ .tag handle suffix) (h : readTag.run p = .ok a q) :
    a = none ∧ q.Facing es n t xs := by
  unfold Parser.readTag at h
  obtain ⟨t', r, hpeek, h⟩ := Parsing.bind_eq_ok h
  obtain ⟨rfl, hr⟩ := hp.peek hpeek
  split at h
  · next handle suffix heq => exact absurd heq (htag handle suffix)
  · cases h
    exact ⟨rfl, hr⟩

/-- No node of JSON texts has an anchor or a tag. -/
theorem Facing.readProperties {a : Properties} (hp : p.Facing es n t xs)
    (hanchor : ∀ name, t.token ≠ .anchor name)
    (htag : ∀ handle suffix, t.token ≠ .tag handle suffix)
    (h : readProperties.run p = .ok a q) : a = ⟨none, none⟩ ∧ q.Facing es n t xs := by
  unfold Parser.readProperties at h
  obtain ⟨_, r, hfirst, h⟩ := Parsing.bind_eq_ok h
  obtain ⟨rfl, hr⟩ := hp.readAnchor hanchor hfirst
  obtain ⟨_, r', hsecond, h⟩ := Parsing.bind_eq_ok h
  obtain ⟨rfl, hr'⟩ := hr.readTag htag hsecond
  obtain ⟨_, _, hlast, h⟩ := Parsing.bind_eq_ok h
  cases hlast
  cases h
  exact ⟨rfl, hr'⟩

end Parser

/-! ## Tokens -/

/-- The tokens that nodes of JSON texts start with. -/
inductive Starts : Token → Prop
  | scalar (text : String) (style : Style) : Starts (.scalar text style)
  | list : Starts .flowSequence
  | mapping : Starts .flowMapping

namespace Parser

variable {p q : Parser} {es : List Event} {n fuel : Nat} {t : Placed} {xs : List Lexeme}
  {handles : Handles} {place : Place} {start : Mark}

/-- **Nodes.** A scalar is read at once, and a collection is opened. -/
theorem node_cases (hp : p.Facing es n t xs) (ht : Starts t.token)
    (h : (node handles (fuel + 1) place).run p = .ok () q) :
    (∃ text style, t.token = .scalar text style ∧
        ∃ m < n, q.Before (.scalar none ⟨none, text, style⟩ t.mark :: es) m xs) ∨
      (t.token = .flowSequence ∧ ∃ r, ∃ m < n, r.Before (.listStart none none t.mark :: es) m xs ∧
        (flowItems handles t.mark fuel true).run r = .ok () q) ∨
      (t.token = .flowMapping ∧ ∃ r, ∃ m < n, r.Before (.mappingStart none none t.mark :: es) m xs ∧
        (flowEntries handles t.mark fuel true).run r = .ok () q) := by
  unfold node at h
  obtain ⟨first, r, hpeek, h⟩ := Parsing.bind_eq_ok h
  obtain ⟨rfl, hr⟩ := hp.peek hpeek
  obtain ⟨token, mark⟩ := first
  simp only at ht h ⊢
  have hanchor : ∀ name, token ≠ .anchor name := by
    rintro name rfl
    cases ht
  have htag : ∀ handle suffix, token ≠ .tag handle suffix := by
    rintro handle suffix rfl
    cases ht
  split at h
  · cases ht
  · obtain ⟨a, r', hproperties, h⟩ := Parsing.bind_eq_ok h
    obtain ⟨rfl, hr'⟩ := hr.readProperties hanchor htag hproperties
    obtain ⟨t, s, hpeek', h⟩ := Parsing.bind_eq_ok h
    obtain ⟨rfl, hs⟩ := hr'.peek hpeek'
    obtain ⟨_, _, htag', h⟩ := Parsing.bind_eq_ok h
    cases htag'
    obtain ⟨_, _, hanchor', h⟩ := Parsing.bind_eq_ok h
    cases hanchor'
    cases ht with
    | scalar text style =>
      obtain ⟨_, v, hadvance, h⟩ := Parsing.bind_eq_ok h
      obtain ⟨m, hm, hv⟩ := hs.advance hadvance
      exact Or.inl ⟨text, style, rfl, m, hm, hv.emit h⟩
    | list =>
      obtain ⟨_, v, hadvance, h⟩ := Parsing.bind_eq_ok h
      obtain ⟨m, hm, hv⟩ := hs.advance hadvance
      obtain ⟨_, w, hemit, h⟩ := Parsing.bind_eq_ok h
      exact Or.inr (Or.inl ⟨rfl, w, m, hm, hv.emit hemit, h⟩)
    | mapping =>
      obtain ⟨_, v, hadvance, h⟩ := Parsing.bind_eq_ok h
      obtain ⟨m, hm, hv⟩ := hs.advance hadvance
      obtain ⟨_, w, hemit, h⟩ := Parsing.bind_eq_ok h
      exact Or.inr (Or.inr ⟨rfl, w, m, hm, hv.emit hemit, h⟩)

theorem node_scalar {text : String} {style : Style} (hp : p.Facing es n t xs)
    (ht : t.token = .scalar text style)
    (h : (node handles (fuel + 1) place).run p = .ok () q) :
    ∃ m < n, q.Before (.scalar none ⟨none, text, style⟩ t.mark :: es) m xs := by
  rcases node_cases hp (ht ▸ .scalar text style) h with
    ⟨text', style', heq, hq⟩ | ⟨heq, -⟩ | ⟨heq, -⟩
  · obtain ⟨rfl, rfl⟩ := Token.scalar.inj (ht.symm.trans heq)
    exact hq
  · cases ht.symm.trans heq
  · cases ht.symm.trans heq

/-- Reads the node in front, which is not left out. -/
theorem nodeBefore_eq_ok {before : List Token} {ys : List Lexeme} (hp : p.Before es n ys)
    (hys : ys ≠ []) (hstarts : ∀ {a : Token} {xs : List Lexeme}, Takes ys a xs → Starts a)
    (hbefore : ∀ {a : Token}, Starts a → before.contains a = false)
    (h : (nodeBefore handles (fuel + 1) place before).run p = .ok () q) :
    ∃ t xs r, Takes ys t.token xs ∧ r.Facing es n t xs ∧
      (node handles fuel place).run r = .ok () q := by
  unfold nodeBefore at h
  obtain ⟨t, r, hpeek, h⟩ := Parsing.bind_eq_ok h
  obtain ⟨xs, htake, hr⟩ := hp.peek hys hpeek
  rw [hbefore (hstarts htake)] at h
  exact ⟨t, xs, r, htake, hr, h⟩

/-! ### Items and entries -/

/-- What is done at an item or entry, or at the mark that closes the collection. -/
def element (close : Token) (event : Event) (flaw : Flaw) (activity : Activity) (start : Mark)
    (item rest : Parsing Unit) (first : Bool) : Parsing Unit := do
  let t ← peek
  if t.token = close then
    advance
    emit event
  else
    if !first then
      if t.token = .flowEntry then advance else fail t flaw activity start
    let t ← peek
    if t.token = close then
      advance
      emit event
    else
      item
      rest

theorem flowItems_eq (first : Bool) : flowItems handles start (fuel + 1) first =
    element .flowSequenceEnd .listEnd .noCommaOrBracket .flowSequence start
      (flowItem handles fuel) (flowItems handles start fuel false) first := by
  rw [flowItems, element]

theorem flowEntries_eq (first : Bool) : flowEntries handles start (fuel + 1) first =
    element .flowMappingEnd .mappingEnd .noCommaOrBrace .flowMapping start
      (flowEntry handles fuel) (flowEntries handles start fuel false) first := by
  rw [flowEntries, element]

section Element

variable {close : Token} {event : Event} {flaw : Flaw} {activity : Activity}
  {item rest : Parsing Unit} {ys : List Lexeme}

theorem element_close {first : Bool} {x : Lexeme} (hp : p.Before es n (x :: xs))
    (hx : ∀ k, x ≠ .key k) (hclose : x.token = close)
    (h : (element close event flaw activity start item rest first).run p = .ok () q) :
    ∃ m < n, q.Before (event :: es) m xs := by
  obtain ⟨t, r, hpeek, h⟩ := Parsing.bind_eq_ok h
  obtain ⟨ys, htake, hr⟩ := hp.peek (List.cons_ne_nil x xs) hpeek
  obtain ⟨htoken, hr⟩ := hr.takes htake hx
  rw [if_pos (htoken.trans hclose)] at h
  obtain ⟨_, s, hadvance, h⟩ := Parsing.bind_eq_ok h
  obtain ⟨m, hm, hs⟩ := hr.advance hadvance
  exact ⟨m, hm, hs.emit h⟩

/-- An item or entry is read, behind a comma unless it is the first one. -/
theorem element_eq_ok {first : Bool} (hp : p.Before es n (bif first then ys else .comma :: ys))
    (hys : ys ≠ []) (hclose : ∀ {xs : List Lexeme}, ¬Takes ys close xs)
    (hcomma : close ≠ .flowEntry)
    (h : (element close event flaw activity start item rest first).run p = .ok () q) :
    ∃ m ≤ n, ∃ t xs r r', Takes ys t.token xs ∧ r.Facing es m t xs ∧ item.run r = .ok () r' ∧
      rest.run r' = .ok () q := by
  obtain ⟨m, hm, t, xs, r, htake, hr, h⟩ : ∃ m ≤ n, ∃ (t : Placed) (xs : List Lexeme) (r : Parser),
      Takes ys t.token xs ∧ r.Facing es m t xs ∧ (if t.token = close then do
        advance
        emit event
      else do
        item
        rest).run r = .ok () q := by
    obtain ⟨t, r, hpeek, h⟩ := Parsing.bind_eq_ok h
    cases first with
    | true =>
      obtain ⟨xs, htake, hr⟩ := hp.peek hys hpeek
      rw [if_neg (fun heq => hclose (heq ▸ htake))] at h
      obtain ⟨t', r', hpeek', htail⟩ := Parsing.bind_eq_ok h
      obtain ⟨rfl, hr'⟩ := hr.peek hpeek'
      exact ⟨n, Nat.le_refl n, t', xs, r', htake, hr', htail⟩
    | false =>
      obtain ⟨zs, htake, hr⟩ := hp.peek (List.cons_ne_nil _ ys) hpeek
      obtain ⟨htoken, hr⟩ := hr.takes htake nofun
      replace htoken : t.token = .flowEntry := htoken
      rw [htoken, if_neg hcomma.symm] at h
      obtain ⟨_, s, hadvance, h⟩ := Parsing.bind_eq_ok h
      obtain ⟨m, hm, hs⟩ := hr.advance hadvance
      obtain ⟨t', s', hpeek', h⟩ := Parsing.bind_eq_ok h
      obtain ⟨xs, htake', hs'⟩ := hs.peek hys hpeek'
      exact ⟨m, Nat.le_of_lt hm, t', xs, s', htake', hs', h⟩
  rw [if_neg (fun heq => hclose (heq ▸ htake))] at h
  obtain ⟨_, r', hitem, h⟩ := Parsing.bind_eq_ok h
  exact ⟨m, hm, t, xs, r, r', htake, hr, hitem, h⟩

/-- Behind an item or entry there must be a comma or the closing mark. -/
theorem element_value (hp : p.Facing es n t xs) (ht : t.token = .value) (hclose : close ≠ .value)
    (h : (element close event flaw activity start item rest false).run p = .ok () q) : False := by
  obtain ⟨t', r, hpeek, h⟩ := Parsing.bind_eq_ok h
  obtain ⟨rfl, hr⟩ := hp.peek hpeek
  rw [ht, if_neg hclose.symm] at h
  obtain ⟨_, _, hfail, -⟩ := Parsing.bind_eq_ok h
  cases hfail

end Element

theorem flowItem_eq_ok (hp : p.Facing es n t xs) (ht : Starts t.token)
    (h : (flowItem handles (fuel + 1)).run p = .ok () q) :
    ∃ r, r.Facing es n t xs ∧ (node handles fuel ⟨false, false⟩).run r = .ok () q := by
  unfold flowItem at h
  obtain ⟨t', r, hpeek, h⟩ := Parsing.bind_eq_ok h
  obtain ⟨rfl, hr⟩ := hp.peek hpeek
  split at h
  · next heq =>
    rw [heq] at ht
    cases ht
  · exact ⟨r, hr, h⟩

/-- Reads the value behind a colon, which is not left out. -/
theorem flowValue_eq_ok {before : List Token} {ys : List Lexeme} (hp : p.Before es n (.colon :: ys))
    (hys : ys ≠ []) (hstarts : ∀ {a : Token} {xs : List Lexeme}, Takes ys a xs → Starts a)
    (hbefore : ∀ {a : Token}, Starts a → before.contains a = false)
    (h : (flowValue handles (fuel + 2) before).run p = .ok () q) :
    ∃ m < n, ∃ t xs r, Takes ys t.token xs ∧ r.Facing es m t xs ∧
      (node handles fuel ⟨false, false⟩).run r = .ok () q := by
  unfold flowValue at h
  obtain ⟨t, r, hpeek, h⟩ := Parsing.bind_eq_ok h
  obtain ⟨zs, htake, hr⟩ := hp.peek (List.cons_ne_nil _ ys) hpeek
  obtain ⟨htoken, hr⟩ := hr.takes htake nofun
  rw [if_pos (show t.token = .value from htoken)] at h
  obtain ⟨_, s, hadvance, h⟩ := Parsing.bind_eq_ok h
  obtain ⟨m, hm, hs⟩ := hr.advance hadvance
  exact ⟨m, hm, nodeBefore_eq_ok hs hys hstarts hbefore h⟩

/-- Reads an entry behind which the braces are read on. A key that is not known as one is taken for
an entry of its own, and the colon behind it is out of place then. -/
theorem flowEntry_eq_ok {k : String} {ys zs : List Lexeme} {v : Parser} (hp : p.Facing es n t ys)
    (ht : Takes (.key k :: .colon :: zs) t.token ys) (hzs : zs ≠ [])
    (hstarts : ∀ {a : Token} {xs : List Lexeme}, Takes zs a xs → Starts a)
    (h : (flowEntry handles (fuel + 4)).run p = .ok () q)
    (hrest : (flowEntries handles start (fuel + 4) false).run q = .ok () v) :
    ∃ mark, ∃ m < n, ∃ t xs r, Takes zs t.token xs ∧
      r.Facing (.scalar none ⟨none, k, .double⟩ mark :: es) m t xs ∧
      (node handles (fuel + 1) ⟨false, false⟩).run r = .ok () q := by
  unfold flowEntry at h
  obtain ⟨t', r, hpeek, h⟩ := Parsing.bind_eq_ok h
  obtain ⟨rfl, hr⟩ := hp.peek hpeek
  obtain ⟨token, mark⟩ := t'
  simp only at ht h
  cases ht with
  | token _ _ =>
    -- The key has no token in front of it: it is read as a node, and `element` meets the colon.
    rw [if_neg (by nofun)] at h
    obtain ⟨_, s, hnode, h⟩ := Parsing.bind_eq_ok h
    obtain ⟨m, -, hs⟩ := node_scalar hr rfl hnode
    obtain ⟨t', s', hpeek', hemit⟩ := Parsing.bind_eq_ok h
    obtain ⟨xs, htake, hs'⟩ := hs.peek (List.cons_ne_nil _ _) hpeek'
    obtain ⟨htoken, hs'⟩ := hs'.takes htake nofun
    rw [flowEntries_eq] at hrest
    exact (element_value (hs'.emit hemit) htoken (by decide) hrest).elim
  | key _ _ =>
    rw [if_pos rfl] at h
    obtain ⟨_, s, hadvance, h⟩ := Parsing.bind_eq_ok h
    obtain ⟨m, hm, hs⟩ := hr.advance hadvance
    obtain ⟨_, v, hkey, h⟩ := Parsing.bind_eq_ok h
    have hstring : ∀ {a : Token} {xs : List Lexeme},
        Takes (.string k :: .colon :: zs) a xs → Starts a := by
      rintro a xs ⟨⟩
      exact .scalar k .double
    obtain ⟨t', ys, r', htake, hr', hnode⟩ := nodeBefore_eq_ok hs (List.cons_ne_nil _ _) hstring
      (by rintro a (_ | _ | _) <;> rfl) hkey
    obtain ⟨htoken, hr'⟩ := hr'.takes htake nofun
    obtain ⟨m', hm', hv⟩ := node_scalar hr' htoken hnode
    obtain ⟨m'', hm'', t'', zs', w, htake', hw, hvalue⟩ := flowValue_eq_ok hv hzs hstarts
      (by rintro a (_ | _ | _) <;> rfl) h
    exact ⟨_, m'', by omega, t'', zs', w, htake', hw, hvalue⟩

end Parser

/-! ## Forms -/

mutual

/-- A node that is a form, with its events. -/
inductive Shows : Form → Tree → List Event → Prop
  | word {f : Form} (h : f.lexemes = [.word f.word]) (mark : Mark) :
      Shows f (.scalar ⟨none, f.word, .plain⟩ mark) [.scalar none ⟨none, f.word, .plain⟩ mark]
  | string (s : String) (mark : Mark) :
      Shows (.string s) (.scalar ⟨none, s, .double⟩ mark) [.scalar none ⟨none, s, .double⟩ mark]
  | array {items : List Form} {trees : List Tree} {es : List Event}
      (h : ShowsItems items trees es) (mark : Mark) :
      Shows (.array items) (.list none trees mark) (.listStart none none mark :: (es ++ [.listEnd]))
  | object {members : List (String × Form)} {entries : List (Tree × Tree)} {es : List Event}
      (h : ShowsMembers members entries es) (mark : Mark) :
      Shows (.object members) (.mapping none entries mark)
        (.mappingStart none none mark :: (es ++ [.mappingEnd]))

inductive ShowsItems : List Form → List Tree → List Event → Prop
  | nil : ShowsItems [] [] []
  | cons {f : Form} {fs : List Form} {tree : Tree} {trees : List Tree} {es es' : List Event}
      (h : Shows f tree es) (h' : ShowsItems fs trees es') :
      ShowsItems (f :: fs) (tree :: trees) (es ++ es')

inductive ShowsMembers : List (String × Form) → List (Tree × Tree) → List Event → Prop
  | nil : ShowsMembers [] [] []
  | cons {k : String} {f : Form} {fs : List (String × Form)} {tree : Tree}
      {entries : List (Tree × Tree)} {es es' : List Event} (mark : Mark) (h : Shows f tree es)
      (h' : ShowsMembers fs entries es') :
      ShowsMembers ((k, f) :: fs) ((.scalar ⟨none, k, .double⟩ mark, tree) :: entries)
        (.scalar none ⟨none, k, .double⟩ mark :: (es ++ es'))

end

theorem Takes.starts {f : Form} {xs ys : List Lexeme} {t : Token}
    (h : Takes (f.lexemes ++ xs) t ys) : Starts t := by
  cases f with
  | array items => cases h; exact .list
  | object members => cases h; exact .mapping
  | null | bool _ | integer _ | real _ _ | string _ => cases h; exact .scalar _ _

theorem lexemes_ne_nil (f : Form) (xs : List Lexeme) : f.lexemes ++ xs ≠ [] := by
  cases f <;> exact List.cons_ne_nil _ _

namespace Parser

variable {handles : Handles}

theorem shows_of_word {f : Form} (hf : f.lexemes = [.word f.word]) {xs ys : List Lexeme}
    {p q : Parser} {es : List Event} {n fuel : Nat} {t : Placed} {place : Place}
    (hp : p.Facing es n t ys) (ht : Takes (f.lexemes ++ xs) t.token ys)
    (h : (node handles (fuel + 1) place).run p = .ok () q) :
    ∃ tree new, Shows f tree new ∧ ∃ m < n, q.Before (new.reverse ++ es) m xs := by
  rw [hf] at ht
  obtain ⟨htoken, hp⟩ := hp.takes ht nofun
  obtain ⟨m, hm, hq⟩ := node_scalar hp htoken h
  exact ⟨_, _, .word hf t.mark, m, hm, hq⟩

-- A node calls `flowItems`, `flowItem` and again `node` for its items, or two more for the value of
-- an entry, whose key and colon are tokens themselves. So three times the tokens left are fuel
-- enough.
mutual

/-- **What is read at the lexemes of a form is a node of it.** -/
theorem shows_of_node : ∀ (f : Form) {xs ys : List Lexeme} {p q : Parser} {es : List Event}
    {n fuel : Nat} {t : Placed} {place : Place}, p.Facing es n t ys →
      Takes (f.lexemes ++ xs) t.token ys → 3 * n + 2 ≤ fuel →
      (node handles (fuel + 1) place).run p = .ok () q →
      ∃ tree new, Shows f tree new ∧ ∃ m < n, q.Before (new.reverse ++ es) m xs
  | .null, _, _, _, _, _, _, _, _, _, hp, ht, _, h => shows_of_word rfl hp ht h
  | .bool _, _, _, _, _, _, _, _, _, _, hp, ht, _, h => shows_of_word rfl hp ht h
  | .integer _, _, _, _, _, _, _, _, _, _, hp, ht, _, h => shows_of_word rfl hp ht h
  | .real _ _, _, _, _, _, _, _, _, _, _, hp, ht, _, h => shows_of_word rfl hp ht h
  | .string s, _, _, _, _, _, _, _, t, _, hp, ht, _, h => by
    obtain ⟨htoken, hp⟩ := hp.takes ht nofun
    obtain ⟨m, hm, hq⟩ := node_scalar hp htoken h
    exact ⟨_, _, .string s t.mark, m, hm, hq⟩
  | .array items, _, _, _, _, _, _, _, t, _, hp, ht, hfuel, h => by
    obtain ⟨htoken, hp⟩ := hp.takes ht nofun
    rcases node_cases hp (htoken ▸ .list) h with ⟨_, _, heq, -⟩ | ⟨-, r, m, hm, hr, h⟩ | ⟨heq, -⟩
    · cases htoken.symm.trans heq
    · obtain ⟨trees, new, hshows, m', hm', hq⟩ := shows_of_items items true hr (by omega) h
      refine ⟨_, _, .array hshows t.mark, m', by omega, ?_⟩
      simpa using hq
    · cases htoken.symm.trans heq
  | .object members, _, _, _, _, _, _, _, t, _, hp, ht, hfuel, h => by
    obtain ⟨htoken, hp⟩ := hp.takes ht nofun
    rcases node_cases hp (htoken ▸ .mapping) h with ⟨_, _, heq, -⟩ | ⟨heq, -⟩ | ⟨-, r, m, hm, hr, h⟩
    · cases htoken.symm.trans heq
    · cases htoken.symm.trans heq
    · obtain ⟨entries, new, hshows, m', hm', hq⟩ := shows_of_members members true hr (by omega) h
      refine ⟨_, _, .object hshows t.mark, m', by omega, ?_⟩
      simpa using hq

theorem shows_of_items : ∀ (fs : List Form) (first : Bool) {xs : List Lexeme} {p q : Parser}
    {es : List Event} {n fuel : Nat} {start : Mark},
      p.Before es n ((bif first then itemLexemes fs else moreItemLexemes fs) ++ xs) →
      3 * n + 5 ≤ fuel → (flowItems handles start fuel first).run p = .ok () q →
      ∃ trees new, ShowsItems fs trees new ∧
        ∃ m < n, q.Before (.listEnd :: (new.reverse ++ es)) m xs
  | [], first, xs, p, _, es, n, fuel + 1, _, hp, _, h => by
    have hp' : p.Before es n (.closes .list :: xs) := by
      cases first <;> exact hp
    rw [flowItems_eq] at h
    obtain ⟨m, hm, hq⟩ := element_close hp' nofun rfl h
    exact ⟨_, _, .nil, m, hm, hq⟩
  | f :: fs, first, xs, p, _, es, n, fuel + 3, _, hp, hfuel, h => by
    have hp' : p.Before es n (bif first then f.lexemes ++ (moreItemLexemes fs ++ xs)
        else .comma :: (f.lexemes ++ (moreItemLexemes fs ++ xs))) := by
      cases first <;> simpa [itemLexemes, moreItemLexemes] using hp
    rw [flowItems_eq] at h
    obtain ⟨m, hm, t, ys, r, r', htake, hr, hitem, hrest⟩ := element_eq_ok hp'
      (lexemes_ne_nil _ _) (fun h => by cases h.starts) (by decide) h
    obtain ⟨s, hs, hnode⟩ := flowItem_eq_ok hr htake.starts hitem
    obtain ⟨tree, new, hshows, m', hm', hr'⟩ := shows_of_node f hs htake (by omega) hnode
    obtain ⟨trees, news, hshows', l, hl, hq⟩ :=
      shows_of_items fs false hr' (by omega) hrest
    refine ⟨_, _, .cons hshows hshows', l, by omega, ?_⟩
    simpa using hq

theorem shows_of_members : ∀ (fs : List (String × Form)) (first : Bool) {xs : List Lexeme}
    {p q : Parser} {es : List Event} {n fuel : Nat} {start : Mark},
      p.Before es n ((bif first then memberLexemes fs else moreMemberLexemes fs) ++ xs) →
      3 * n + 5 ≤ fuel → (flowEntries handles start fuel first).run p = .ok () q →
      ∃ entries new, ShowsMembers fs entries new ∧
        ∃ m < n, q.Before (.mappingEnd :: (new.reverse ++ es)) m xs
  | [], first, xs, p, _, es, n, fuel + 1, _, hp, _, h => by
    have hp' : p.Before es n (.closes .object :: xs) := by
      cases first <;> exact hp
    rw [flowEntries_eq] at h
    obtain ⟨m, hm, hq⟩ := element_close hp' nofun rfl h
    exact ⟨_, _, .nil, m, hm, hq⟩
  | (k, f) :: fs, first, xs, p, _, es, n, fuel + 5, _, hp, hfuel, h => by
    have hp' : p.Before es n (bif first then
          .key k :: .colon :: (f.lexemes ++ (moreMemberLexemes fs ++ xs))
        else .comma :: .key k :: .colon :: (f.lexemes ++ (moreMemberLexemes fs ++ xs))) := by
      cases first <;> simpa [memberLexemes, moreMemberLexemes] using hp
    rw [flowEntries_eq] at h
    obtain ⟨m, hm, t, ys, r, r', htake, hr, hentry, hrest⟩ := element_eq_ok hp'
      (List.cons_ne_nil _ _) (fun h => by cases h) (by decide) h
    obtain ⟨mark, m', hm', t', xs', s, htake', hs, hnode⟩ :=
      flowEntry_eq_ok hr htake (lexemes_ne_nil _ _) Takes.starts hentry hrest
    obtain ⟨tree, new, hshows, m'', hm'', hr'⟩ := shows_of_node f hs htake' (by omega) hnode
    obtain ⟨entries, news, hshows', l, hl, hq⟩ :=
      shows_of_members fs false hr' (by omega) hrest
    refine ⟨_, _, .cons mark hshows hshows', l, by omega, ?_⟩
    simpa using hq

end

end Parser

/-! ## Trees -/

mutual

/-- The events of a form add its node to the collection around it. -/
theorem Shows.within : ∀ {f : Form} {tree : Tree} {es : List Event}, Shows f tree es →
    ∀ (o : OpenTree) (around : List OpenTree) (r : List Event),
      Tree.within (o :: around) (es ++ r) = Tree.within (o.add tree :: around) r
  | _, _, _, .word _ _, _, _, _ => by rw [List.singleton_append, Tree.within]
  | _, _, _, .string _ _, _, _, _ => by rw [List.singleton_append, Tree.within]
  | _, _, _, .array h _, o, around, r => by
    rw [List.cons_append, List.append_assoc, List.singleton_append, Tree.within, h.within,
      Tree.within, OpenTree.close, List.append_nil, List.reverse_reverse]
  | _, _, _, .object h _, o, around, r => by
    rw [List.cons_append, List.append_assoc, List.singleton_append, Tree.within, h.within,
      Tree.within, OpenTree.close, List.append_nil, List.reverse_reverse]

theorem ShowsItems.within : ∀ {fs : List Form} {trees : List Tree} {es : List Event},
    ShowsItems fs trees es → ∀ (tag : Option Bytes) (before : List Tree) (mark : Mark)
      (around : List OpenTree) (r : List Event),
      Tree.within (.list tag before mark :: around) (es ++ r) =
        Tree.within (.list tag (trees.reverse ++ before) mark :: around) r
  | _, _, _, .nil, _, _, _, _, _ => rfl
  | _, _, _, .cons h h', _, _, _, _, _ => by
    rw [List.append_assoc, h.within, OpenTree.add, h'.within, List.reverse_cons,
      List.append_assoc, List.singleton_append]

theorem ShowsMembers.within : ∀ {fs : List (String × Form)} {entries : List (Tree × Tree)}
    {es : List Event}, ShowsMembers fs entries es → ∀ (tag : Option Bytes)
      (before : List (Tree × Tree)) (mark : Mark) (around : List OpenTree) (r : List Event),
      Tree.within (.mapping tag before none mark :: around) (es ++ r) =
        Tree.within (.mapping tag (entries.reverse ++ before) none mark :: around) r
  | _, _, _, .nil, _, _, _, _, _ => rfl
  | _, _, _, .cons _ h h', _, _, _, _, _ => by
    rw [List.cons_append, List.append_assoc, Tree.within, OpenTree.add, h.within, OpenTree.add,
      h'.within, List.reverse_cons, List.append_assoc, List.singleton_append]

end

theorem Shows.ofEvents {fs : List (String × Form)} {tree : Tree} {es : List Event}
    (h : Shows (.object fs) tree es) : Tree.ofEvents es = tree := by
  cases h with
  | word h _ => cases h
  | object h _ =>
    rw [Tree.ofEvents, Tree.within, h.within, Tree.within, List.append_nil, List.head?_cons,
      Option.map_some, Option.getD_some, OpenTree.close, List.reverse_reverse]
    exact nofun

end SecretMount.Yaml
