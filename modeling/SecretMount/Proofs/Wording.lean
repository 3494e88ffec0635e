import SecretMount.Proofs.Blame

/-!
# What the text of a bad name mentions

The text of a fault repeats the name as it was, between quotes, and some reasons quote a segment of
it. So a word that is found in the text need not be one of its own words.

* `Text.Mentions` : a word stands somewhere in a text; `Text.mentions_quote_iff` : in a text with a
  quoted part, a word without a quote stands before, in or behind that part;
* `VersionName.Flaw.quoted` : what a reason quotes, which are segments of the name
  (`VersionName.mem_of_quoted`);
* `VersionName.Flaw.exists_quoted` : no reason but that of a bad location speaks of one, so that a
  reason which does has it from the name;
* `VersionName.marked_iff` : which texts have the words `invalid location`, and when these tell that
  the location is blamed.
-/

namespace SecretMount

/-! ## Words in texts -/

/-- A word without `c` does not run across `c`. -/
theorem infix_append_cons_iff {α : Type} {word xs ys : List α} {c : α} (h : c ∉ word) :
    word <:+: xs ++ c :: ys ↔ word <:+: xs ∨ word <:+: ys := by
  have hnil : ∀ w : List α, c ∉ w → w <+: c :: ys → w = [] := by
    intro w hw hprefix
    cases w with
    | nil => rfl
    | cons d w =>
      obtain ⟨rfl, -⟩ := List.cons_prefix_cons.1 hprefix
      exact absurd List.mem_cons_self hw
  constructor
  · intro hword
    rcases List.infix_append_iff.1 hword with hxs | hcons | ⟨w, w', rfl, hend, hstart⟩
    · exact Or.inl hxs
    · rcases List.infix_cons_iff.1 hcons with hstart | hys
      · rw [hnil word h hstart]
        exact Or.inr List.nil_infix
      · exact Or.inr hys
    · rw [hnil w' (fun hc => h (List.mem_append_right w hc)) hstart, List.append_nil]
      exact Or.inl hend.isInfix
  · rintro (hxs | hys)
    · exact List.infix_append_of_infix_left hxs
    · exact List.infix_append_of_infix_right (List.infix_cons hys)

theorem infix_intercalate {α : Type} {sep xs : List α} : ∀ {l : List (List α)}, xs ∈ l →
    xs <:+: sep.intercalate l
  | [ys], h => by
    have hxs : xs = sep.intercalate [ys] :=
      (List.mem_singleton.1 h).trans List.intercalate_singleton.symm
    exact hxs ▸ List.infix_rfl
  | ys :: zs :: l, h => by
    rw [List.intercalate_cons_cons]
    rcases List.mem_cons.1 h with rfl | h
    · exact List.infix_append_of_infix_left List.infix_append_left
    · exact List.infix_append_of_infix_right (infix_intercalate h)

namespace Text

/-- `word` stands somewhere in `s`. -/
def Mentions (s word : String) : Prop := word.toList <:+: s.toList

instance (s word : String) : Decidable (Mentions s word) :=
  inferInstanceAs (Decidable (word.toList <:+: s.toList))

theorem Mentions.trans {s t word : String} (h : Mentions s t) (hword : Mentions t word) :
    Mentions s word := List.IsInfix.trans hword h

theorem mentions_append_left {s word : String} (t : String) (h : Mentions s word) :
    Mentions (s ++ t) word := by
  unfold Mentions
  rw [String.toList_append]
  exact List.infix_append_of_infix_left h

theorem mentions_append_right {t word : String} (s : String) (h : Mentions t word) :
    Mentions (s ++ t) word := by
  unfold Mentions
  rw [String.toList_append]
  exact List.infix_append_of_infix_right h

/-- A text mentions the pieces that it is joined from. -/
theorem mentions_intercalate {sep piece : String} {pieces : List String} (h : piece ∈ pieces) :
    Mentions (sep.intercalate pieces) piece := by
  unfold Mentions
  rw [String.toList_intercalate]
  exact infix_intercalate (List.mem_map_of_mem h)

theorem mentions_of_mem_split {c : Char} {s piece : String} (h : piece ∈ split c s) :
    Mentions s piece := by
  obtain ⟨cs, hcs, rfl⟩ := List.mem_map.1 h
  have hpiece : cs <:+: [c].intercalate (s.toList.splitOn c) := infix_intercalate hcs
  rw [List.intercalate_splitOn] at hpiece
  rwa [Mentions, String.toList_ofList]

/-- A word without a quote does not run across the quotes around a part of a text. -/
theorem mentions_quote_iff {word before part behind : String} (h : '"' ∉ word.toList)
    (hbefore : before.toList.getLast? = some '"') (hbehind : behind.toList.head? = some '"') :
    Mentions (before ++ part ++ behind) word ↔
      Mentions before word ∨ Mentions part word ∨ Mentions behind word := by
  obtain ⟨xs, hxs⟩ := List.getLast?_eq_some_iff.1 hbefore
  obtain ⟨ys, hys⟩ := List.head?_eq_some_iff.1 hbehind
  have htext : (before ++ part ++ behind).toList =
      xs ++ '"' :: (part.toList ++ '"' :: ys) := by
    simp [hxs, hys]
  have hopen : Mentions before word ↔ word.toList <:+: xs := by
    rw [Mentions, hxs, infix_append_cons_iff h, or_iff_left_iff_imp]
    exact fun hnil => hnil.trans List.nil_infix
  have hclose : Mentions behind word ↔ word.toList <:+: ys := by
    rw [Mentions, hys, ← List.nil_append ('"' :: ys), infix_append_cons_iff h,
      or_iff_right_iff_imp]
    exact fun hnil => hnil.trans List.nil_infix
  rw [hopen, hclose, Mentions, Mentions, htext, infix_append_cons_iff h, infix_append_cons_iff h]

end Text

namespace VersionName

/-! ## What a reason quotes -/

/-- The segments of the name that are quoted when anything but the location is wrong. -/
def Flaw.quoted : Flaw → List String
  | badVersion token _ => [token]
  | unexpected segment => [segment]
  | _ => []

theorem quoted_of_parseLocation {middle : List String} {flaw : Flaw}
    (h : parseLocation middle = .error flaw) : ∀ part ∈ flaw.quoted, part ∈ middle := by
  unfold parseLocation at h
  split at h
  · cases h
  · next first ids =>
    split at h
    · cases h
      simp [Flaw.quoted]
    · simp only at h
      split at h
      · cases h
      · cases h
        simp [Flaw.quoted]

/-- What is quoted are segments of the name. -/
theorem mem_of_quoted {l : List String} {flaw : Flaw} (h : ofSegments l = .error flaw) :
    ∀ part ∈ flaw.quoted, part ∈ l := by
  intro part hpart
  rcases ofSegments_eq_error h with hflaw | ⟨project, middle, secret, token, rfl, -, -, hrest⟩
  · simp only [List.mem_cons, List.not_mem_nil, or_false] at hflaw
    rcases hflaw with rfl | rfl | rfl | rfl | rfl <;> nomatch hpart
  · rcases hrest with ⟨what, -, rfl⟩ | ⟨-, hlocation⟩
    · rw [List.mem_singleton.1 hpart]
      simp
    · have hmiddle := quoted_of_parseLocation hlocation part hpart
      simp [hmiddle]

/-! ## The words for a bad location -/

/-- The words by which the text of a bad location is known. -/
def locationMark : String := "invalid location"

/-- Whatever is wrong about a version, it is quoted. -/
theorem Flaw.message_badVersion (token : String) (what : Version.Flaw) :
    ∃ behind : String, (Flaw.badVersion token what).message = "version \"" ++ token ++ behind ∧
      behind.toList.head? = some '"' ∧ ¬ Text.Mentions behind locationMark := by
  cases what with
  | notANumber =>
    exact ⟨"\" must be a number or \"latest\"", rfl, by decide, by decide +kernel⟩
  | leadingZero => exact ⟨"\" must not have leading zeros", rfl, by decide, by decide +kernel⟩
  | outOfRange => exact ⟨"\" is out of range", rfl, by decide, by decide +kernel⟩

/-- A reason that speaks of a location without blaming it quotes a segment that does. -/
theorem Flaw.exists_quoted {flaw : Flaw} (hflaw : ∀ location, flaw ≠ .badLocation location)
    (h : Text.Mentions ("\": " ++ flaw.message) locationMark) :
    ∃ part ∈ flaw.quoted, Text.Mentions part locationMark := by
  have hquote : '"' ∉ locationMark.toList := by decide
  cases flaw with
  | tooShort => exact absurd h (by decide +kernel)
  | badStart => exact absurd h (by decide +kernel)
  | badEnd => exact absurd h (by decide +kernel)
  | emptyProject => exact absurd h (by decide +kernel)
  | emptySecret => exact absurd h (by decide +kernel)
  | badLocation location => exact absurd rfl (hflaw location)
  | unexpected segment =>
    have hmessage : (Flaw.unexpected segment).message =
        "unexpected segment \"" ++ segment ++ "\" after project" := rfl
    rw [hmessage, ← String.append_assoc, ← String.append_assoc,
      Text.mentions_quote_iff hquote (by decide) (by decide)] at h
    rcases h with h | h | h
    · exact absurd h (by decide +kernel)
    · exact ⟨segment, List.mem_singleton_self segment, h⟩
    · exact absurd h (by decide +kernel)
  | badVersion token what =>
    obtain ⟨behind, hmessage, hhead, hbehind⟩ := message_badVersion token what
    rw [hmessage, ← String.append_assoc, ← String.append_assoc,
      Text.mentions_quote_iff hquote (by decide) hhead] at h
    rcases h with h | h | h
    · exact absurd h (by decide +kernel)
    · exact ⟨token, List.mem_singleton_self token, h⟩
    · exact absurd h hbehind

/-- The text of a fault: its frame, the name between quotes, and the reason. -/
theorem Fault.message_eq (f : Fault) : f.message =
    "Invalid secret resource name \"" ++ f.name ++ ("\": " ++ f.flaw.message) := by
  have hmessage : f.message =
      "Invalid secret resource name \"" ++ f.name ++ "\": " ++ f.flaw.message := rfl
  rw [hmessage, String.append_assoc]

/-- The words are in the reason, or in the name itself. -/
theorem Fault.mentions_mark_iff (f : Fault) : Text.Mentions f.message locationMark ↔
    Text.Mentions f.name locationMark ∨ Text.Mentions ("\": " ++ f.flaw.message) locationMark := by
  have hframe : ¬ Text.Mentions "Invalid secret resource name \"" locationMark := by
    decide +kernel
  have hhead : ("\": " ++ f.flaw.message).toList.head? = some '"' := by
    rw [String.toList_append, List.head?_append]
    rfl
  rw [f.message_eq, Text.mentions_quote_iff (by decide) (by decide) hhead]
  simp only [hframe, false_or]

theorem Fault.isLocation_iff {f : Fault} :
    f.isLocation = true ↔ ∃ location, f.flaw = .badLocation location := by
  unfold isLocation
  split
  · next location hflaw => exact ⟨fun _ => ⟨location, hflaw⟩, fun _ => rfl⟩
  · next hflaw =>
    constructor
    · nofun
    · rintro ⟨location, h⟩
      exact absurd h (hflaw location)

theorem mentions_of_isLocation {f : Fault} (h : f.isLocation = true) :
    Text.Mentions ("\": " ++ f.flaw.message) locationMark := by
  obtain ⟨location, hflaw⟩ := Fault.isLocation_iff.1 h
  have hmessage : f.flaw.message = "invalid location \"" ++ location ++ "\"" := by
    rw [hflaw]
    rfl
  rw [hmessage, String.append_assoc]
  exact Text.mentions_append_right _ (Text.mentions_append_left _ (by decide +kernel))

/-- When the location is not blamed the words are those of the name. -/
theorem name_of_mentions {s : String} {f : Fault} (h : parse s = .error f)
    (hf : f.isLocation ≠ true) (hmark : Text.Mentions ("\": " ++ f.flaw.message) locationMark) :
    Text.Mentions s locationMark := by
  obtain ⟨flaw, hsegments, rfl⟩ := mapError_eq_error_iff.1 h
  have hflaw : ∀ location, flaw ≠ .badLocation location := by
    intro location hlocation
    exact hf (Fault.isLocation_iff.2 ⟨location, hlocation⟩)
  obtain ⟨part, hpart, hmark⟩ := Flaw.exists_quoted hflaw hmark
  have hpiece := Text.mentions_of_mem_split (mem_of_quoted hsegments part hpart)
  exact hpiece.trans hmark

theorem mentions_mark_iff {s : String} {f : Fault} (h : parse s = .error f) :
    Text.Mentions f.message locationMark ↔
      f.isLocation = true ∨ Text.Mentions s locationMark := by
  rw [f.mentions_mark_iff, name_of_parse h]
  constructor
  · rintro (hname | hreason)
    · exact Or.inr hname
    · by_cases hf : f.isLocation = true
      · exact Or.inl hf
      · exact Or.inr (name_of_mentions h hf hreason)
  · rintro (hf | hname)
    · exact Or.inr (mentions_of_isLocation hf)
    · exact Or.inl hname

/-- **What the text of a fault mentions.** The text of every fault has the words for a bad name. It
has the words for a bad location when the location is blamed, and otherwise exactly when the name
has them. So they tell whether the location is blamed unless they are in a name of which something
else is wrong. -/
theorem marked_iff {s : String} {f : Fault} (h : parse s = .error f) :
    Text.Mentions f.message "Invalid secret resource name" ∧
    (Text.Mentions f.message "invalid location" ↔
      f.isLocation = true ∨ Text.Mentions s "invalid location") ∧
    ((Text.Mentions f.message "invalid location" ↔ f.isLocation = true) ↔
      f.isLocation = true ∨ ¬ Text.Mentions s "invalid location") := by
  have hframe : Text.Mentions f.message "Invalid secret resource name" := by
    rw [f.message_eq, String.append_assoc]
    exact Text.mentions_append_left _ (by decide +kernel)
  have hmark := mentions_mark_iff h
  rw [locationMark] at hmark
  refine ⟨hframe, hmark, ?_⟩
  rw [hmark]
  by_cases hf : f.isLocation = true
  · simp [hf]
  · simp [hf]

/-- A bad version after a location that is one, in a secret whose id has the first of the words. -/
theorem marked_iff_first_word :
    let s := "projects/p/locations/us/secrets/invalid/versions/invalid"
    let f : Fault := ⟨s, .badVersion "invalid" .notANumber⟩
    parse s = .error f ∧ f.isLocation = false ∧
      Text.Mentions f.message "Invalid secret resource name" ∧
      ¬ Text.Mentions f.message "invalid location" := by
  intro s f
  have hs : parse s = .error f := by decide
  obtain ⟨hframe, hmark, -⟩ := marked_iff hs
  refine ⟨hs, rfl, hframe, fun h => ?_⟩
  rcases hmark.1 h with hf | hname
  · exact absurd hf (by decide)
  · exact absurd hname (by decide +kernel)

/-- The words for a bad location are in the text of a bad version, as the secret has them. -/
theorem marked_without_location :
    let s := "projects/p/secrets/invalid location/versions/0"
    let f : Fault := ⟨s, .badVersion "0" .outOfRange⟩
    parse s = .error f ∧ f.isLocation = false ∧ Text.Mentions f.message "invalid location" ∧
      ¬ (Text.Mentions f.message "invalid location" ↔ f.isLocation = true) := by
  intro s f
  have hs : parse s = .error f := by decide
  have hmark : Text.Mentions f.message "invalid location" := by decide +kernel
  exact ⟨hs, rfl, hmark, fun h => absurd (h.1 hmark) (by decide)⟩

end VersionName

end SecretMount
