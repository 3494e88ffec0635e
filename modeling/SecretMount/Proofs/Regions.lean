import Mathlib.Data.List.Forall2
import SecretMount.Proofs.Admission
import SecretMount.Proofs.Variables

/-!
# Lists of regions

A list of regions is read item by item: the text is cut at its commas, the blanks around each piece
are dropped, and what is left of it counts where it first comes. What is read can be written with
commas again, and is then read as it was.

* `Cuts` : the items of a text, empty ones and repeated ones included (`cuts_iff`);
* `IsRegion` : what an item must be to count. `parseRegions_joinWith` : different items of this kind
  are read from their text;
* `regions_exact` : what is read, and that reading it again gives the same.
-/

namespace SecretMount

/-! ## Items -/

/-- `items` is what stands in `list` between its commas, without the blanks around it. -/
def Cuts (list : String) (items : List String) : Prop :=
  ∃ pieces, pieces ≠ [] ∧ Text.joinWith ',' pieces = list ∧ (∀ p ∈ pieces, ',' ∉ p.toList) ∧
    List.Forall₂ Text.Trims pieces items

theorem forall₂_trims_iff {pieces items : List String} :
    List.Forall₂ Text.Trims pieces items ↔ items = pieces.map Text.trim := by
  constructor
  · intro h
    induction h with
    | nil => rfl
    | cons hs _ ih => rw [List.map_cons, Text.trim_of_trims hs, ← ih]
  · rintro rfl
    exact List.forall₂_map_right_iff.2 (List.forall₂_same.2 fun p _ => Text.trims_trim p)

/-- Every text has its items. -/
theorem cuts_iff {list : String} {items : List String} :
    Cuts list items ↔ items = (Text.split ',' list).map Text.trim := by
  constructor
  · rintro ⟨pieces, hne, rfl, hcomma, hitems⟩
    rw [Text.split_joinWith hne hcomma]
    exact forall₂_trims_iff.1 hitems
  · intro h
    refine ⟨Text.split ',' list, ?_, Text.joinWith_split ',' list, fun p hp => ?_,
      forall₂_trims_iff.2 h⟩
    · simp [Text.split, List.splitOn_ne_nil]
    · exact Text.not_mem_of_mem_split hp

/-! ## Regions -/

/-- A text that can be an item of a list and is not empty. -/
structure IsRegion (r : String) : Prop where
  ne_empty : r ≠ ""
  comma_not_mem : ',' ∉ r.toList
  trimmed : Text.Trimmed r

/-- Trimming a text puts no comma into it. -/
theorem comma_not_mem_trim {s : String} (h : ',' ∉ s.toList) : ',' ∉ (Text.trim s).toList := by
  obtain ⟨before, after, hs, -, -⟩ := (Text.trims_trim s).exists_blanks
  rw [hs, List.mem_append, List.mem_append] at h
  exact fun hmem => h (Or.inl (Or.inr hmem))

theorem isRegion_of_mem {list r : String} (h : r ∈ parseRegions list) : IsRegion r := by
  obtain ⟨hne, piece, hpiece, rfl⟩ := mem_parseRegions_iff.1 h
  exact ⟨hne, comma_not_mem_trim (Text.not_mem_of_mem_split hpiece), Text.trimmed_trim piece⟩

theorem distinct_of_nodup {l : List String} (h : l.Nodup) : distinct l = l := by
  induction l using List.reverseRecOn with
  | nil => rfl
  | append_singleton l r ih =>
    obtain ⟨hl, -, hdisjoint⟩ := List.nodup_append.1 h
    have hnew : r ∉ l := fun hr => hdisjoint r hr r (List.mem_singleton_self r) rfl
    rw [distinct_concat, ih hl, if_neg hnew]

/-- **Different regions with commas between them are read as they are.** -/
theorem parseRegions_joinWith {l : List String} (hnodup : l.Nodup) (h : ∀ r ∈ l, IsRegion r) :
    parseRegions (Text.joinWith ',' l) = l := by
  by_cases hl : l = []
  · subst hl
    decide
  · have htrim : l.map Text.trim = l :=
      (List.map_congr_left fun r hr => (h r hr).trimmed.trim_eq).trans (List.map_id l)
    have hfilter : l.filter (!·.isEmpty) = l :=
      List.filter_eq_self.2 fun r hr => by simp [(h r hr).ne_empty]
    rw [parseRegions, Text.split_joinWith hl fun r hr => (h r hr).comma_not_mem, htrim, hfilter,
      distinct_of_nodup hnodup]

/-- What is read stands in the order in which it first comes among the items. -/
theorem parseRegions_eq_iff {list : String} {regions : List String} :
    parseRegions list = regions ↔ ∃ items, Cuts list items ∧
      (∀ r, r ∈ regions ↔ r ∈ items ∧ r ≠ "") ∧
      regions.Pairwise fun r r' => items.idxOf r < items.idxOf r' := by
  have hitem : ∀ r, IsItem list r ↔ r ∈ (Text.split ',' list).map Text.trim ∧ r ≠ "" := fun r => by
    rw [IsItem, List.mem_map, and_comm]
  rw [eq_comm, ← FetchSettings.isRegionList_iff]
  constructor
  · rintro ⟨hmem, hordered⟩
    exact ⟨_, cuts_iff.2 rfl, fun r => (hmem r).trans (hitem r), hordered⟩
  · rintro ⟨items, hitems, hmem, hordered⟩
    cases cuts_iff.1 hitems
    exact ⟨fun r => (hmem r).trans (hitem r).symm, hordered⟩

/-- **What is read of a list of regions.** It is what stands between the commas, without the blanks
around it: all of this that is not empty and nothing else, each item once and in the order in which
it first comes. None of it is empty, has a comma in it or starts or ends with a blank, and when it
is written with commas the same is read again. -/
theorem regions_exact (list : String) :
    (∀ regions, parseRegions list = regions ↔ ∃ items, Cuts list items ∧
      (∀ r, r ∈ regions ↔ r ∈ items ∧ r ≠ "") ∧
      regions.Pairwise fun r r' => items.idxOf r < items.idxOf r') ∧
    (parseRegions list).Nodup ∧
    (∀ r ∈ parseRegions list, r ≠ "" ∧ ',' ∉ r.toList ∧
      (∀ c ∈ r.toList.head?, c ∉ Text.blanks) ∧ ∀ c ∈ r.toList.getLast?, c ∉ Text.blanks) ∧
    parseRegions (Text.joinWith ',' (parseRegions list)) = parseRegions list := by
  refine ⟨fun regions => parseRegions_eq_iff, nodup_parseRegions list, fun r hr => ?_, ?_⟩
  · obtain ⟨hne, hcomma, hhead, hlast⟩ := isRegion_of_mem hr
    exact ⟨hne, hcomma, hhead, hlast⟩
  · exact parseRegions_joinWith (nodup_parseRegions list) fun r => isRegion_of_mem

/-- A list with an empty item, a repeated one and a blank that is not of ASCII. -/
theorem regions_exact_wide_blank :
    let list := "\u2003us-east1,, europe-west3 ,us-east1\u00a0"
    let regions := ["us-east1", "europe-west3"]
    parseRegions list = regions ∧ Cuts list ["us-east1", "", "europe-west3", "us-east1"] ∧
      "us-east1" ∈ parseRegions list ∧ ',' ∉ "us-east1".toList ∧
      parseRegions (Text.joinWith ',' regions) = regions := by
  intro list regions
  have hcuts : Cuts list ["us-east1", "", "europe-west3", "us-east1"] := cuts_iff.2 (by decide)
  obtain ⟨hread, -, hregion, hagain⟩ := regions_exact list
  have hregions : parseRegions list = regions :=
    (hread regions).2 ⟨_, hcuts, by grind, by decide⟩
  rw [hregions] at hregion hagain
  have hmem : "us-east1" ∈ parseRegions list := by
    rw [hregions]
    exact List.mem_cons_self
  exact ⟨hregions, hcuts, hmem, (hregion "us-east1" List.mem_cons_self).2.1, hagain⟩

end SecretMount
