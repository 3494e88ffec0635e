import SecretMount.Proofs.Lexing

/-!
# Taking the tokens of JSON texts

* `Yaml.Takes`, `Yaml.Tokens` : the tokens that lexemes become. A key may have a token in front of
  it or not;
* `Lexer.Before` : what a lexer is going to read, whatever it has read of it already;
* `Lexer.Facing` : the next token is settled;
* `Lexer.facing_of_peek`, `Facing.before` : one token after the other.
-/

namespace SecretMount.Yaml

open Json (Lexeme Stage Spells)

/-- What is left of lexemes when their first token is taken. -/
inductive Takes : List Lexeme → Token → List Lexeme → Prop
  | token (x : Lexeme) (xs : List Lexeme) : Takes (x :: xs) x.token xs
  | key (k : String) (xs : List Lexeme) : Takes (.key k :: xs) .key (.string k :: xs)

theorem Takes.unique {xs ys zs : List Lexeme} {t : Token} (h : Takes xs t ys) (h' : Takes xs t zs) :
    ys = zs := by
  cases h with
  | token x xs =>
    generalize ht : x.token = t at h'
    cases h' with
    | token _ _ => rfl
    | key k _ => cases ht
  | key k xs =>
    generalize ht : Token.key = t at h'
    cases h' with
    | token _ _ => cases ht
    | key _ _ => rfl

/-- What is left of lexemes when tokens are taken. -/
inductive Tokens : List Lexeme → List Token → List Lexeme → Prop
  | nil (xs : List Lexeme) : Tokens xs [] xs
  | cons {xs ys zs : List Lexeme} {t : Token} {ts : List Token} (h : Takes xs t ys)
      (h' : Tokens ys ts zs) : Tokens xs (t :: ts) zs

theorem Tokens.append {xs ys zs : List Lexeme} {ts us : List Token} (h : Tokens xs ts ys)
    (h' : Tokens ys us zs) : Tokens xs (ts ++ us) zs := by
  induction h with
  | nil xs => exact h'
  | cons h _ ih => exact .cons h (ih h')

theorem Takes.tokens {xs ys : List Lexeme} {t : Token} (h : Takes xs t ys) : Tokens xs [t] ys :=
  .cons h (.nil ys)

theorem insertIdx_length {α : Type} (x y : α) : ∀ l : List α,
    (l ++ [y]).insertIdx l.length x = l ++ [x, y]
  | [] => rfl
  | a :: l => congrArg (a :: ·) (insertIdx_length x y l)

namespace Lexer

/-! ## What is going to be read -/

/-- What could be a key is the string that was read last. -/
def KeyOpen (s : Lexer) (xs ys : List Lexeme) : Prop :=
  ∀ p, s.key = some p → p.position + 1 = s.count ∧ ∃ ts k,
    s.tokens = ts ++ [.scalar k .double] ∧ Tokens xs ts (.key k :: ys)

/-- The lexer is going to read the lexemes `xs`, or has read their start. -/
def Before (s : Lexer) (xs : List Lexeme) : Prop :=
  ∃ ys, Tokens xs s.tokens ys ∧ (s.ended = true ∧ ys = [] ∨
    ∃ st n, s.Unread st n ys ∧ (st = .keyed → s.KeyOpen xs ys))

/-- What is left to read. -/
def room (s : Lexer) : Nat := if s.ended then 0 else s.cursor.rest.length + 1

/-- A bound of the tokens that are left to take. A character stands for two tokens at most. -/
def left (s : Lexer) : Nat :=
  s.queue.length + if s.ended then 0 else 2 * s.cursor.rest.length + 1

theorem length_tokens (s : Lexer) : s.tokens.length = s.queue.length := List.length_map ..

/-- A lexeme adds two tokens at most. -/
theorem Emits.length_le {s u : Lexer} {x : Lexeme} (h : s.Emits u x) :
    u.queue.length ≤ s.queue.length + 2 := by
  rw [← length_tokens, ← length_tokens]
  cases h with
  | token _ htokens _ | value htokens =>
    rw [htokens, List.length_append, List.length_singleton]
    omega
  | keyValue _ htokens =>
    rw [htokens, List.length_append, List.length_singleton, List.length_insertIdx]
    split <;> omega

/-- When a lexeme is read, the lexer is still before the same lexemes. -/
theorem before_of_reads {s u : Lexer} {st st' : Stage} {n n' : Nat} {y : Lexeme}
    {xs ys : List Lexeme} (hreads : s.Reads u y st' n' ys) (hstep : y.Step st n st' n')
    (htokens : Tokens xs s.tokens (y :: ys)) (hkey : st = .keyed → s.KeyOpen xs (y :: ys)) :
    u.Before xs := by
  cases hreads.emits with
  | token _ htokens' hkey' =>
    refine ⟨ys, ?_, Or.inr ⟨st', n', hreads.unread, ?_⟩⟩
    · rw [htokens']
      exact htokens.append (Takes.token y ys).tokens
    · rintro rfl
      cases hstep with
      | key k =>
        intro p hp
        refine ⟨?_, s.tokens, k, htokens', htokens⟩
        have hqueue := u.length_tokens
        rw [htokens', List.length_append, List.length_singleton, length_tokens] at hqueue
        have hposition := hkey' k rfl p hp
        have htaken := hreads.taken
        unfold count at hposition ⊢
        omega
  | value htokens' =>
    refine ⟨ys, ?_, Or.inr ⟨st', n', hreads.unread, ?_⟩⟩
    · rw [htokens']
      exact htokens.append (Takes.token .colon ys).tokens
    · rintro rfl
      cases hstep
  | @keyValue p hp htokens' =>
    -- The string that is the key was the last token, so the new one lands right in front of it.
    cases hstep
    obtain ⟨hposition, ts, k, hts, hk⟩ := hkey rfl p hp
    have hinsert : p.position - s.taken = ts.length := by
      have hqueue := s.length_tokens
      rw [hts, List.length_append, List.length_singleton] at hqueue
      unfold count at hposition
      omega
    rw [hts, hinsert, insertIdx_length] at htokens'
    refine ⟨ys, ?_, Or.inr ⟨_, _, hreads.unread, nofun⟩⟩
    rw [htokens', List.append_assoc]
    exact hk.append (.cons (.key k _) (.cons (.token (.string k) _) (Takes.token .colon ys).tokens))

theorem before_of_fetch {s u : Lexer} {xs : List Lexeme} (hs : s.Before xs)
    (hended : s.ended = false) (h : s.fetch = .ok u) :
    u.Before xs ∧ u.room < s.room ∧ u.left ≤ s.left := by
  obtain ⟨ys, htokens, ⟨htrue, -⟩ | ⟨st, n, hunread, hkey⟩⟩ := hs
  · rw [hended] at htrue
    cases htrue
  · obtain ⟨y, ys, rfl⟩ : ∃ y zs, ys = y :: zs := by
      obtain ⟨r, hspells, -⟩ := hunread.text
      cases hspells with
      | stop _ => exact ⟨_, _, rfl⟩
      | cons _ _ _ _ => exact ⟨_, _, rfl⟩
    unfold room left
    rw [hended]
    simp only [Bool.false_eq_true, if_false]
    rcases reads_of_fetch hunread h with ⟨rfl, rfl, hend, htokens', -⟩ | ⟨st', n', hstep, hreads⟩
    · have hqueue := u.length_tokens
      rw [htokens', List.length_append, List.length_singleton, length_tokens] at hqueue
      rw [hend]
      refine ⟨⟨[], ?_, Or.inl ⟨hend, rfl⟩⟩, by simp, ?_⟩
      · rw [htokens']
        exact htokens.append (Takes.token .stop []).tokens
      · simp only [if_true]
        omega
    · have hshorter := hreads.shorter
      have hlength := hreads.emits.length_le
      rw [hreads.unread.ended]
      simp only [Bool.false_eq_true, if_false]
      exact ⟨before_of_reads hreads hstep htokens hkey, by omega, by omega⟩

/-! ## Keys that are dropped -/

theorem Sheds.before {s t : Lexer} {xs : List Lexeme} (h : s.Sheds t) (hs : s.Before xs) :
    t.Before xs := by
  have htokens : t.tokens = s.tokens := by rw [h.eq]; rfl
  have hcount : t.count = s.count := by rw [h.eq]; rfl
  have hended : t.ended = s.ended := by rw [h.eq]
  obtain ⟨ys, hys, hend | ⟨st, n, hunread, hkey⟩⟩ := hs
  · exact ⟨ys, htokens ▸ hys, Or.inl (hended ▸ hend)⟩
  · refine ⟨ys, htokens ▸ hys, Or.inr ⟨st, n, ?_, fun hst p hp => ?_⟩⟩
    · have hcursor : t.cursor = s.cursor := by rw [h.eq]
      have hblocks : t.blocks = s.blocks := by rw [h.eq]
      refine ⟨hended.trans hunread.ended, hblocks.trans hunread.blocks,
        h.length.trans hunread.depth, hcursor ▸ hunread.room, hcursor ▸ hunread.unbroken,
        hcursor ▸ hunread.text, fun hst => ?_⟩
      rcases h.key with hnone | hsame
      · exact hnone
      · rw [hsame, hunread.key hst]
    · rcases h.key with hnone | hsame
      · rw [hnone] at hp
        cases hp
      · rw [hsame] at hp
        rw [hcount, htokens]
        exact hkey hst p hp

theorem Sheds.left {s t : Lexer} (h : s.Sheds t) : t.left = s.left := by
  rw [h.eq]
  rfl

theorem Sheds.room {s t : Lexer} (h : s.Sheds t) : t.room = s.room := by
  rw [h.eq]
  rfl

/-! ## The next token -/

/-- The next token will not change. -/
def Settled (s : Lexer) : Prop := s.queue ≠ [] ∧ (s.needsMore = false ∨ s.ended = true)

theorem Sheds.settled {s t : Lexer} (h : s.Sheds t) (hs : s.Settled) : t.Settled := by
  have hqueue : t.queue = s.queue := by rw [h.eq]
  have htaken : t.taken = s.taken := by rw [h.eq]
  have hended : t.ended = s.ended := by rw [h.eq]
  refine ⟨hqueue ▸ hs.1, hs.2.imp (fun hmore => ?_) hended.trans⟩
  unfold needsMore at hmore ⊢
  rw [Bool.or_eq_false_iff, List.any_eq_false] at hmore ⊢
  refine ⟨hqueue ▸ hmore.1, fun k hk => ?_⟩
  cases k with
  | none => simp
  | some p =>
    rw [htaken]
    exact hmore.2 (some p) (h.keys p hk)

theorem settled_of_settle : ∀ {fuel : Nat} {s u : Lexer} {xs : List Lexeme}, s.Before xs →
    xs ≠ [] → s.room < fuel → s.settle fuel = .ok u → u.Before xs ∧ u.Settled ∧ u.left ≤ s.left
  | 0, _, _, _, _, _, hroom, _ => absurd hroom (Nat.not_lt_zero _)
  | fuel + 1, s, u, xs, hs, hxs, hroom, h => by
    obtain ⟨t, hsheds, h⟩ : ∃ t, s.Sheds t ∧ (if t.needsMore && !t.ended then do
        let t ← t.fetch
        settle fuel t
      else .ok t) = .ok u := by
      unfold settle at h
      split at h
      · exact ⟨s, .refl s, h⟩
      · obtain ⟨t, ht, h⟩ := bind_eq_ok_iff.1 h
        exact ⟨t, sheds_of_dropStaleKeys ht, h⟩
    have ht := hsheds.before hs
    split at h
    · next hmore =>
      rw [Bool.and_eq_true, Bool.not_eq_true'] at hmore
      obtain ⟨v, hv, h⟩ := bind_eq_ok_iff.1 h
      obtain ⟨hbefore, hroom', hleft⟩ := before_of_fetch ht hmore.2 hv
      rw [hsheds.room] at hroom'
      rw [hsheds.left] at hleft
      obtain ⟨hu, hsettled, hleft'⟩ := settled_of_settle hbefore hxs (by omega) h
      exact ⟨hu, hsettled, Nat.le_trans hleft' hleft⟩
    · next hmore =>
      cases h
      refine ⟨ht, ?_, Nat.le_of_eq hsheds.left⟩
      rw [Bool.and_eq_true, Bool.not_eq_true', not_and_or, Bool.not_eq_true, Bool.not_eq_false]
        at hmore
      refine ⟨?_, hmore⟩
      rcases hmore with hmore | hended
      · rintro hnil
        unfold needsMore at hmore
        rw [hnil] at hmore
        cases hmore
      · obtain ⟨ys, htokens, ⟨-, rfl⟩ | ⟨st, n, hunread, -⟩⟩ := ht
        · intro hnil
          unfold tokens at htokens
          rw [hnil] at htokens
          cases htokens
          exact hxs rfl
        · rw [hunread.ended] at hended
          cases hended

/-- The next token is `t`, and behind it there are the lexemes `xs`. -/
structure Facing (s : Lexer) (t : Placed) (xs : List Lexeme) : Prop where
  head : s.queue.head? = some t
  settled : s.Settled
  before : s.advance.Before xs

theorem facing_of_settled {s : Lexer} {xs : List Lexeme} (hs : s.Before xs) (h : s.Settled) :
    ∃ t ys, Takes xs t.token ys ∧ s.Facing t ys := by
  obtain ⟨t, q, hqueue⟩ := List.exists_cons_of_ne_nil h.1
  obtain ⟨zs, htokens, hend⟩ := hs
  have hcons : s.tokens = t.token :: s.advance.tokens := by
    unfold tokens advance
    rw [hqueue]
    rfl
  have hcount : s.advance.count = s.count := by
    unfold count advance
    rw [hqueue]
    simp only [List.drop_succ_cons, List.drop_zero, List.length_cons]
    omega
  have hlength : s.queue.length = s.advance.tokens.length + 1 := by
    rw [← length_tokens, hcons, List.length_cons]
  rw [hcons] at htokens
  cases htokens with
  | @cons _ ys _ _ _ htake htokens =>
    refine ⟨t, ys, htake, by rw [hqueue]; rfl, h, zs, htokens, hend.imp_right ?_⟩
    rintro ⟨st, n, hunread, hkey⟩
    refine ⟨st, n, ⟨hunread.ended, hunread.blocks, hunread.depth, hunread.room, hunread.unbroken,
      hunread.text, hunread.key⟩, fun hst p hp => ?_⟩
    obtain ⟨hposition, ts, k, hts, hk⟩ := hkey hst p hp
    refine ⟨hcount ▸ hposition, ?_⟩
    cases ts with
    | nil =>
      -- The string in front could still become a key, so it is not settled.
      rcases h.2 with hmore | hended
      · rw [hcons] at hts
        obtain ⟨-, hnil⟩ := List.cons.inj hts
        rw [hnil] at hlength
        unfold needsMore at hmore
        rw [Bool.or_eq_false_iff, List.any_eq_false] at hmore
        have hkeys : s.key = some p := hp
        have hnot := hmore.2 (some p) (by rw [hkeys]; exact List.mem_cons_self)
        simp only [Option.map_some, Option.getD_some, beq_iff_eq] at hnot
        unfold count at hposition
        rw [List.length_nil] at hlength
        omega
      · rw [hunread.ended] at hended
        cases hended
    | cons t' ts =>
      rw [hcons, List.cons_append] at hts
      obtain ⟨rfl, htail⟩ := List.cons.inj hts
      cases hk with
      | cons htake' hk =>
        rw [htake.unique htake']
        exact ⟨ts, k, htail, hk⟩

theorem facing_of_peek {s u : Lexer} {t : Placed} {xs : List Lexeme} (hs : s.Before xs)
    (hxs : xs ≠ []) (h : s.peek = .ok (t, u)) :
    u.Before xs ∧ u.left ≤ s.left ∧ ∃ ys, Takes xs t.token ys ∧ u.Facing t ys := by
  unfold peek at h
  obtain ⟨v, hv, h⟩ := bind_eq_ok_iff.1 h
  cases h
  have hroom : s.room < s.cursor.fuel := by
    unfold room Cursor.fuel
    obtain ⟨ys, -, ⟨hended, -⟩ | ⟨st, n, hunread, -⟩⟩ := hs
    · rw [hended]
      simp
    · rw [hunread.ended]
      have hroom := hunread.room
      simp only [Bool.false_eq_true, if_false]
      omega
  obtain ⟨hbefore, hsettled, hleft⟩ := settled_of_settle hs hxs hroom hv
  obtain ⟨t, ys, htake, hfacing⟩ := facing_of_settled hbefore hsettled
  rw [hfacing.head]
  exact ⟨hbefore, hleft, ys, htake, hfacing⟩

/-- A settled token stays when it is asked for again. -/
theorem Facing.peek {s u : Lexer} {t t' : Placed} {xs : List Lexeme} (hs : s.Facing t xs)
    (h : s.peek = .ok (t', u)) : t' = t ∧ u.Facing t xs ∧ u.left ≤ s.left := by
  unfold Lexer.peek Cursor.fuel settle at h
  have hnonempty : s.queue.isEmpty = false := by
    rw [List.isEmpty_eq_false_iff]
    exact hs.settled.1
  rw [hnonempty] at h
  simp only [Bool.false_eq_true, if_false] at h
  obtain ⟨v, hv, h⟩ := bind_eq_ok_iff.1 h
  obtain ⟨w, hw, hv⟩ := bind_eq_ok_iff.1 hv
  have hsheds := sheds_of_dropStaleKeys hw
  have hsettled := hsheds.settled hs.settled
  have hmore : (w.needsMore && !w.ended) = false := by
    rcases hsettled.2 with hmore | hended
    · rw [hmore, Bool.false_and]
    · rw [hended, Bool.not_true, Bool.and_false]
  rw [hmore] at hv
  obtain rfl : w = v := Except.ok.inj hv
  obtain ⟨rfl, rfl⟩ := Prod.mk.inj (Except.ok.inj h)
  have hqueue : w.queue = s.queue := by rw [hsheds.eq]
  have hadvance : s.advance.Sheds w.advance := by
    refine ⟨?_, hsheds.key, hsheds.keys, hsheds.length⟩
    unfold advance
    rw [hsheds.eq]
  rw [hqueue, hs.head]
  exact ⟨rfl, ⟨hqueue ▸ hs.head, hsettled, hadvance.before hs.before⟩, Nat.le_of_eq hsheds.left⟩

/-- One token less is left behind it. -/
theorem Facing.left {s : Lexer} {t : Placed} {xs : List Lexeme} (hs : s.Facing t xs) :
    s.advance.left < s.left := by
  obtain ⟨t, q, hqueue⟩ := List.exists_cons_of_ne_nil hs.settled.1
  unfold Lexer.left advance
  rw [hqueue]
  simp only [List.drop_succ_cons, List.drop_zero, List.length_cons]
  omega

end Lexer

end SecretMount.Yaml
