import SecretMount.Proofs.Recognition
import SecretMount.Yaml.Source

/-!
# The characters of YAML sources

A source is the start of what its bytes encode, and all of it unless it breaks off.

* `Text.bytes` : the bytes of characters. `Text.cons_of_bytes_append` : characters are told from
  the start of their bytes, whatever stands behind them;
* `Text.decode?_eq_some_iff` : the bytes that are decoded to a text;
* `Text.exists_undecoded` : what is decoded, and what is left;
* `Source.read_bytes` : the bytes of a source.
-/

namespace SecretMount

namespace Text

/-! ## Bytes of characters -/

def bytes (cs : List Char) : Bytes := cs.flatMap String.utf8EncodeChar

@[simp] theorem bytes_nil : bytes [] = [] := rfl

@[simp] theorem bytes_cons (c : Char) (cs : List Char) :
    bytes (c :: cs) = String.utf8EncodeChar c ++ bytes cs := List.flatMap_cons

@[simp] theorem bytes_append (cs ds : List Char) : bytes (cs ++ ds) = bytes cs ++ bytes ds :=
  List.flatMap_append

theorem length_le_bytes (cs : List Char) : cs.length ≤ (bytes cs).length := by
  induction cs with
  | nil => rfl
  | cons c cs ih =>
    obtain ⟨b, r, hencoded, -⟩ := head_utf8EncodeChar c
    rw [bytes_cons, hencoded, List.length_append, List.length_cons, List.length_cons]
    omega

/-- What is decoded is what is encoded. -/
theorem eq_bytes_of_decodeChars? {bs : Bytes} {cs : List Char} (h : decodeChars? bs = some cs) :
    bs = bytes cs := by
  induction hn : bs.length using Nat.strongRecOn generalizing bs cs with
  | ind n ih =>
    cases bs with
    | nil =>
      cases h
      rfl
    | cons a r =>
      obtain ⟨c, tail, rest, ds, rfl, rfl, hencoded, -, hds, -⟩ := exists_starts h
      rw [List.length_cons, List.length_append] at hn
      rw [bytes_cons, hencoded, ← ih _ (by omega) hds rfl, List.cons_append]

/-- The bytes of a character are not the start of those of another. -/
theorem utf8EncodeChar_append_inj {c d : Char} {r s : Bytes}
    (h : String.utf8EncodeChar c ++ r = String.utf8EncodeChar d ++ s) : c = d ∧ r = s := by
  have hstart : ∀ {c d : Char} {x : Bytes}, String.utf8EncodeChar c = String.utf8EncodeChar d ++ x →
      c = d ∧ x = [] := by
    intro c d x hx
    have hc : decodeChars? (String.utf8EncodeChar c) = some [c] := by
      have h := decodeChars?_utf8EncodeChar c []
      rwa [List.append_nil] at h
    rw [hx, decodeChars?_utf8EncodeChar, Option.map_eq_some_iff] at hc
    obtain ⟨cs, hcs, hcons⟩ := hc
    obtain ⟨rfl, rfl⟩ := List.cons.inj hcons
    exact ⟨rfl, eq_bytes_of_decodeChars? hcs⟩
  rcases List.append_eq_append_iff.1 h with ⟨x, hd, rfl⟩ | ⟨x, hc, rfl⟩
  · obtain ⟨rfl, rfl⟩ := hstart hd
    exact ⟨rfl, rfl⟩
  · obtain ⟨rfl, rfl⟩ := hstart hc
    exact ⟨rfl, rfl⟩

theorem cons_of_bytes_append {cs : List Char} {c : Char} {tail r : Bytes} (hne : cs ≠ [])
    (h : bytes cs ++ tail = String.utf8EncodeChar c ++ r) :
    ∃ ds, cs = c :: ds ∧ bytes ds ++ tail = r := by
  obtain ⟨d, ds, rfl⟩ := List.exists_cons_of_ne_nil hne
  rw [bytes_cons, List.append_assoc] at h
  obtain ⟨rfl, hr⟩ := utf8EncodeChar_append_inj h
  exact ⟨ds, rfl, hr⟩

/-! ## What is left undecoded -/

theorem exists_undecodedAfter : ∀ (n : Nat) (bs : Bytes),
    ∃ cs, bs.drop n = bytes cs ++ undecodedAfter n bs := by
  intro n bs
  induction bs generalizing n with
  | nil => exact ⟨[], by simp [undecodedAfter]⟩
  | cons b r ih =>
    cases n with
    | succ n => exact ih n
    | zero =>
      unfold undecodedAfter
      cases hlength : charLength? (b :: r) with
      | none => exact ⟨[], rfl⟩
      | some m =>
        have hfound := List.find?_some hlength
        have hmem := List.mem_of_find?_eq_some hlength
        rw [Bool.and_eq_true, Option.isSome_iff_exists] at hfound
        obtain ⟨-, cs, hcs⟩ := hfound
        obtain ⟨ds, hds⟩ := ih (m - 1)
        have hm : m - 1 + 1 = m := by
          simp only [List.mem_cons, List.not_mem_nil, or_false] at hmem
          omega
        have hdrop : (b :: r).drop m = r.drop (m - 1) := by
          rw [← hm, List.drop_succ_cons, Nat.add_sub_cancel]
        refine ⟨cs ++ ds, ?_⟩
        rw [bytes_append, List.append_assoc, ← hds, ← eq_bytes_of_decodeChars? hcs, ← hdrop,
          List.take_append_drop, List.drop_zero]

/-- Bytes are those of characters and what is left undecoded. -/
theorem exists_undecoded (bs : Bytes) : ∃ cs, bs = bytes cs ++ undecoded bs :=
  exists_undecodedAfter 0 bs

theorem decodeChars?_bytes (cs : List Char) : decodeChars? (bytes cs) = some cs := by
  induction cs with
  | nil => rfl
  | cons c cs ih => rw [bytes_cons, decodeChars?_utf8EncodeChar, ih, Option.map_some]

/-- A text is decoded from its own bytes only. -/
theorem decode?_eq_some_iff {bs : Bytes} {s : String} : decode? bs = some s ↔ bs = encode s := by
  constructor
  · intro h
    obtain ⟨cs, hcs, rfl⟩ := Option.map_eq_some_iff.1 h
    rw [encode, String.toList_ofList]
    exact eq_bytes_of_decodeChars? hcs
  · rintro rfl
    exact decode?_encode s

end Text

namespace Yaml.Source

/-! ## Blocks -/

theorem flaw_incomplete {a : UInt8} {r : Bytes} {k : Nat} (h : flaw a r = (.incomplete, k)) :
    k = 0 ∧ r.length < 3 := by
  unfold flaw at h
  split at h
  · cases h
  · next width hwidth =>
    split at h
    · next hshort =>
      obtain ⟨-, rfl⟩ := Prod.mk.inj h
      have hle : width ≤ 4 := by
        unfold width? at hwidth
        repeat' split at hwidth
        all_goals cases hwidth
        all_goals decide
      exact ⟨rfl, by omega⟩
    · split at h
      · cases h
      · split at h <;> cases h

/-- The characters of a block without a flaw, or with a last character that is not complete. -/
theorem readBlock_bytes {offset : Nat} {block : Bytes} {text : List Char}
    {x : Option (ByteFlaw × Nat)} (h : readBlock offset block = (text, x)) :
    (x = none → block = Text.bytes text) ∧
      ∀ place, x = some (.incomplete, place) → ∃ rest, block = Text.bytes text ++ rest ∧
        rest.length < 4 ∧ place = offset + (Text.bytes text).length := by
  obtain ⟨cs, hcs⟩ := Text.exists_undecoded block
  generalize hrest : Text.undecoded block = rest at hcs
  have hdecoded : block.length - rest.length = (Text.bytes cs).length := by
    rw [hcs, List.length_append, Nat.add_sub_cancel]
  have htext : (Text.decodeChars? (block.take (Text.bytes cs).length)).getD [] = cs := by
    rw [hcs, List.take_left, Text.decodeChars?_bytes, Option.getD_some]
  unfold readBlock at h
  simp only [hrest, hdecoded, htext] at h
  split at h
  · obtain ⟨-, rfl⟩ := Prod.mk.inj h
    exact ⟨nofun, nofun⟩
  · cases rest with
    | nil =>
      obtain ⟨rfl, rfl⟩ := Prod.mk.inj h
      rw [List.append_nil] at hcs
      exact ⟨fun _ => hcs, nofun⟩
    | cons a r =>
      obtain ⟨rfl, rfl⟩ := Prod.mk.inj h
      refine ⟨nofun, fun place hplace => ⟨a :: r, hcs, ?_⟩⟩
      obtain ⟨hflaw, hk⟩ := Prod.mk.inj (Option.some.inj hplace)
      obtain ⟨hzero, hlength⟩ := flaw_incomplete (Prod.ext hflaw rfl)
      have hplace : (flaw a r).2 = 0 := hzero
      exact ⟨by rw [List.length_cons]; omega, by omega⟩

/-- The bytes of a source are where its reader starts and what it passes over, and what is left is
nothing unless it breaks off. -/
theorem readFrom_bytes : ∀ (fuel offset : Nat) (text : List Char) (bs : Bytes),
    bs.length < fuel → ∃ more tail, (readFrom fuel offset text bs).text = text ++ more ∧
      Text.bytes more ++ tail = bs ∧ ((readFrom fuel offset text bs).cut = none → tail = []) := by
  intro fuel
  induction fuel with
  | zero => exact fun _ _ _ h => absurd h (Nat.not_lt_zero _)
  | succ fuel ih =>
    intro offset text bs hfuel
    obtain ⟨more, x, hblock⟩ : ∃ more x, readBlock offset (bs.take blockLength) = (more, x) :=
      ⟨_, _, rfl⟩
    obtain ⟨hwhole, hincomplete⟩ := readBlock_bytes hblock
    have hsplit := List.take_append_drop blockLength bs
    have hpositive : 4 ≤ blockLength := by decide
    unfold readFrom
    rw [hblock]
    split
    · next heq =>
      obtain ⟨rfl, rfl⟩ := Prod.mk.inj heq
      split
      · next hlast =>
        refine ⟨more, [], rfl, ?_, fun _ => rfl⟩
        rw [List.append_nil, ← hwhole rfl, List.take_of_length_le hlast]
      · obtain ⟨rest, tail, htext, hbytes, htail⟩ :=
          ih (offset + blockLength) (text ++ more) (bs.drop blockLength)
            (by rw [List.length_drop]; omega)
        refine ⟨more ++ rest, tail, by rw [htext, List.append_assoc], ?_, htail⟩
        rw [Text.bytes_append, List.append_assoc, hbytes, ← hwhole rfl, hsplit]
    · next heq =>
      obtain ⟨rfl, rfl⟩ := Prod.mk.inj heq
      obtain ⟨rest, hbytes, hlength, rfl⟩ := hincomplete _ rfl
      have hbs : bs = Text.bytes more ++ (rest ++ bs.drop blockLength) := by
        rw [← List.append_assoc, ← hbytes, hsplit]
      split
      · exact ⟨more, rest ++ bs.drop blockLength, rfl, hbs.symm, nofun⟩
      · next hlong =>
        have hmore : 0 < (Text.bytes more).length := by
          have htake := congrArg List.length hbytes
          rw [List.length_take, List.length_append] at htake
          omega
        obtain ⟨rest', tail, htext, hbytes', htail⟩ :=
          ih (offset + (Text.bytes more).length) (text ++ more)
            (bs.drop (offset + (Text.bytes more).length - offset))
            (by rw [List.length_drop]; omega)
        refine ⟨more ++ rest', tail, by rw [htext, List.append_assoc], ?_, htail⟩
        have hdrop : bs.drop (offset + (Text.bytes more).length - offset) =
            rest ++ bs.drop blockLength := by
          rw [Nat.add_sub_cancel_left]
          exact (congrArg (List.drop _) hbs).trans List.drop_left
        rw [Text.bytes_append, List.append_assoc, hbytes', hdrop, ← hbs]
    · exact ⟨[], bs, (List.append_nil text).symm, rfl, nofun⟩

/-- **The bytes of a source.** What breaks off is the start of the bytes. -/
theorem read_bytes (bs : Bytes) : ∃ tail, Text.bytes (read bs).text ++ tail = bs ∧
    ((read bs).cut = none → tail = []) := by
  obtain ⟨more, tail, htext, hbytes, htail⟩ := readFrom_bytes (bs.length + 1) 0 [] bs
    (Nat.lt_succ_self bs.length)
  exact ⟨tail, by rw [read, htext, List.nil_append, hbytes], htail⟩

end Yaml.Source

end SecretMount
