import SecretMount.Mount.Request
import SecretMount.Proofs.Trimming

/-!
# Which entries are accepted

* `Entry.Sound` : what an entry has to be, and `Entry.flaw?_eq_none_iff` : it has no flaw exactly
  when it is that;
* `Mount.firstFlaw?_eq_none_iff`, `Mount.firstFlaw?_of_first` : no entry of a list has a flaw, or
  the first one that is not sound is found;
* `Mount.parseEntries_eq_ok_iff`, `Mount.parseEntries_of_first` : the lists that are accepted, and
  what is said about the others.
-/

namespace SecretMount.Mount

/-! ## One entry -/

namespace Entry

/-- An entry that names a secret and one place for it below the mount, and at most one key. -/
structure Sound (e : Entry) : Prop where
  named : ∃ c ∈ e.resourceName.toList, c ∉ Text.blanks
  placed :
    (∃ name, e.fileName = some name ∧ e.path = none ∧ name ≠ "" ∧ '/' ∉ name.toList) ∨
      ∃ path, e.path = some path ∧ e.fileName = none ∧ path ≠ "" ∧ path.toList.head? ≠ some '/' ∧
        ".." ∉ Text.split '/' path
  oneKey : e.jsonKey = none ∨ e.yamlKey = none

theorem isPlainName_iff {s : String} : isPlainName s = true ↔ s ≠ "" ∧ '/' ∉ s.toList := by
  simp [isPlainName]

theorem staysInside_iff {s : String} : staysInside s = true ↔
    s ≠ "" ∧ s.toList.head? ≠ some '/' ∧ ".." ∉ Text.split '/' s := by
  simp [staysInside, and_assoc]

theorem destinationFlaw?_eq_none_iff {e : Entry} : e.destinationFlaw? = none ↔
    (∃ name, e.fileName = some name ∧ e.path = none ∧ name ≠ "" ∧ '/' ∉ name.toList) ∨
      ∃ path, e.path = some path ∧ e.fileName = none ∧ path ≠ "" ∧ path.toList.head? ≠ some '/' ∧
        ".." ∉ Text.split '/' path := by
  unfold destinationFlaw?
  cases e.fileName with
  | none =>
    cases e.path with
    | none => simp
    | some path => simp [← staysInside_iff]
  | some name =>
    cases e.path with
    | none => simp [← isPlainName_iff]
    | some path => simp

/-- **An entry has no flaw exactly when it is sound.** -/
theorem flaw?_eq_none_iff {e : Entry} : e.flaw? = none ↔ e.Sound := by
  have hnamed : ¬ (Text.trim e.resourceName).isEmpty = true ↔
      ∃ c ∈ e.resourceName.toList, c ∉ Text.blanks := by
    rw [Text.trim_isEmpty_iff]
    simp
  have hkey : ¬ (e.jsonKey.isSome && e.yamlKey.isSome) = true ↔
      e.jsonKey = none ∨ e.yamlKey = none := by
    cases e.jsonKey <;> cases e.yamlKey <;> simp
  have hsound : e.Sound ↔ (¬ (Text.trim e.resourceName).isEmpty = true) ∧
      e.destinationFlaw? = none ∧ ¬ (e.jsonKey.isSome && e.yamlKey.isSome) = true := by
    rw [hnamed, hkey, destinationFlaw?_eq_none_iff]
    exact ⟨fun ⟨h, i, j⟩ => ⟨h, i, j⟩, fun ⟨h, i, j⟩ => ⟨h, i, j⟩⟩
  rw [hsound]
  unfold flaw?
  split
  · next hblank => simp [hblank]
  · next hblank =>
    cases hdestination : e.destinationFlaw? with
    | some flaw => simp
    | none =>
      simp only [hblank]
      split <;> simp_all

end Entry

/-! ## All entries -/

theorem firstFlaw?_eq_none_iff {entries : List Entry} :
    firstFlaw? entries = none ↔ ∀ e ∈ entries, e.Sound := by
  unfold firstFlaw?
  rw [List.findSome?_eq_none_iff]
  constructor
  · intro h e he
    obtain ⟨i, hi⟩ := List.mem_iff_getElem?.1 he
    have hnone := h (e, i) (List.mem_zipIdx_iff_getElem?.2 hi)
    exact Entry.flaw?_eq_none_iff.1 (Option.map_eq_none_iff.1 hnone)
  · rintro h ⟨e, i⟩ hmem
    have he := List.mem_of_getElem? (List.mem_zipIdx_iff_getElem?.1 hmem)
    exact Option.map_eq_none_iff.2 (Entry.flaw?_eq_none_iff.2 (h e he))

/-- What is found first is what an item has that no item in front of it has. -/
theorem findSome?_of_first {α β : Type} {f : α → Option β} {b : β} :
    ∀ {l : List α} {i : Nat} {a : α}, l[i]? = some a → f a = some b →
      (∀ j c, j < i → l[j]? = some c → f c = none) → l.findSome? f = some b
  | c :: l, 0, a, ha, hb, _ => by
    cases ha
    rw [List.findSome?_cons, hb]
  | c :: l, i + 1, a, ha, hb, hfirst => by
    rw [List.findSome?_cons, hfirst 0 c (Nat.succ_pos i) rfl]
    exact findSome?_of_first ha hb fun j d hj hd => hfirst (j + 1) d (Nat.succ_lt_succ hj) hd

/-- The first entry that is not sound is the one whose flaw is found. -/
theorem firstFlaw?_of_first {entries : List Entry} {i : Nat} {e : Entry}
    (he : entries[i]? = some e) (hflawed : ¬ e.Sound)
    (hfirst : ∀ j d, j < i → entries[j]? = some d → d.Sound) :
    ∃ flaw, e.flaw? = some flaw ∧ firstFlaw? entries = some (i, flaw) := by
  obtain ⟨flaw, hflaw⟩ := Option.ne_none_iff_exists'.1 (mt Entry.flaw?_eq_none_iff.1 hflawed)
  have hindexed : ∀ {j : Nat} {d : Entry × Nat},
      entries.zipIdx[j]? = some d ↔ entries[j]? = some d.1 ∧ j = d.2 := by
    rintro j ⟨d, k⟩
    rw [List.getElem?_zipIdx, Option.map_eq_some_iff]
    simp only [Prod.mk.injEq, Nat.zero_add]
    constructor
    · rintro ⟨_, hd, rfl, rfl⟩
      exact ⟨hd, rfl⟩
    · rintro ⟨hd, rfl⟩
      exact ⟨d, hd, rfl, rfl⟩
  have hfound : entries.zipIdx[i]? = some (e, i) := hindexed.2 ⟨he, rfl⟩
  refine ⟨flaw, hflaw, findSome?_of_first hfound ?_ fun j d hj hd => ?_⟩
  · exact Option.map_eq_some_iff.2 ⟨flaw, hflaw, rfl⟩
  · obtain ⟨hentry, -⟩ := hindexed.1 hd
    exact Option.map_eq_none_iff.2 (Entry.flaw?_eq_none_iff.2 (hfirst j d.1 hj hentry))

/-- **A list of entries is accepted when it has some and all are sound.** -/
theorem parseEntries_eq_ok_iff {text : String} {entries : List Entry} :
    parseEntries text = .ok entries ↔
      readEntries? text = some entries ∧ entries ≠ [] ∧ ∀ e ∈ entries, e.Sound := by
  unfold parseEntries
  cases readEntries? text with
  | none => simp
  | some l =>
    cases l with
    | nil =>
      simp only [reduceCtorEq, Option.some.injEq, false_iff, not_and]
      rintro rfl hne
      exact absurd rfl hne
    | cons e r =>
      simp only [Option.some.injEq]
      rw [← firstFlaw?_eq_none_iff]
      cases hflaw : firstFlaw? (e :: r) with
      | some found =>
        obtain ⟨i, flaw⟩ := found
        simp only [reduceCtorEq, false_iff, not_and]
        rintro rfl -
        simp [hflaw]
      | none =>
        simp only [Except.ok.injEq]
        constructor
        · rintro rfl
          exact ⟨rfl, by simp, hflaw⟩
        · exact fun h => h.1

/-- The first entry that is not sound is the one that a refusal is about. -/
theorem parseEntries_of_first {text : String} {entries : List Entry} {i : Nat} {e : Entry}
    (hread : readEntries? text = some entries) (he : entries[i]? = some e) (hflawed : ¬ e.Sound)
    (hfirst : ∀ j d, j < i → entries[j]? = some d → d.Sound) :
    ∃ flaw, e.flaw? = some flaw ∧ parseEntries text = .error (.entry i flaw) := by
  obtain ⟨flaw, hflaw, hfound⟩ := firstFlaw?_of_first he hflawed hfirst
  refine ⟨flaw, hflaw, ?_⟩
  unfold parseEntries
  rw [hread]
  cases entries with
  | nil => cases he
  | cons d r => simp only [hfound]

end SecretMount.Mount
