import Mathlib.Data.List.Induction
import Mathlib.Data.List.Nodup
import SecretMount.Proofs.Causes

/-!
# Failures put together

The failures of a request come in any order. None of them is lost, and they are told in the order of
their entries.

* `Failure.Arranges` : the same failures in the order of their entries, where those of one entry
  stay as they came. There is one way to arrange failures, and this is how they are sorted
  (`Failure.arranges_iff`);
* `EntryFailure.Tells`, `Failure.Enumerates` : the texts of one failure and of several;
* `Failure.aggregates_in_order` : what failures are put together to, and what is told of them.
-/

namespace SecretMount.Mount

/-! ## Order -/

namespace Failure

/-- `sorted` has the failures of `l` in the order of their entries. Those of one entry stand as they
do in `l`. -/
structure Arranges (l sorted : List EntryFailure) : Prop where
  perm : sorted.Perm l
  ordered : sorted.Pairwise fun f g => f.index ≤ g.index
  stable : ∀ index, sorted.filter (·.index = index) = l.filter (·.index = index)

theorem insert_perm (f : EntryFailure) (l : List EntryFailure) : (insert f l).Perm (f :: l) := by
  induction l with
  | nil => exact .refl [f]
  | cons g r ih =>
    unfold insert
    split
    · exact .refl (f :: g :: r)
    · exact (ih.cons g).trans (.swap f g r)

theorem insert_ordered {f : EntryFailure} {l : List EntryFailure}
    (h : l.Pairwise fun f g => f.index ≤ g.index) :
    (insert f l).Pairwise fun f g => f.index ≤ g.index := by
  induction l with
  | nil => exact List.pairwise_singleton _ f
  | cons g r ih =>
    obtain ⟨hg, hr⟩ := List.pairwise_cons.1 h
    unfold insert
    split
    · next hlt =>
      refine List.pairwise_cons.2 ⟨fun u hu => ?_, h⟩
      rcases List.mem_cons.1 hu with rfl | hu
      · exact Nat.le_of_lt hlt
      · exact Nat.le_trans (Nat.le_of_lt hlt) (hg u hu)
    · next hge =>
      refine List.pairwise_cons.2 ⟨fun u hu => ?_, ih hr⟩
      rcases List.mem_cons.1 ((insert_perm f r).mem_iff.1 hu) with rfl | hu
      · exact Nat.not_lt.1 hge
      · exact hg u hu

/-- A failure comes behind those of the same entry that are there already. -/
theorem insert_stable {f : EntryFailure} {l : List EntryFailure}
    (h : l.Pairwise fun f g => f.index ≤ g.index) (index : Nat) :
    (insert f l).filter (·.index = index) = (l ++ [f]).filter (·.index = index) := by
  induction l with
  | nil => rfl
  | cons g r ih =>
    obtain ⟨hg, hr⟩ := List.pairwise_cons.1 h
    unfold insert
    split
    · next hlt =>
      by_cases hf : f.index = index
      · -- all that stands behind `f` belongs to entries further on
        have hbehind : (g :: r).filter (·.index = index) = [] := by
          refine List.filter_eq_nil_iff.2 fun u hu => ?_
          rw [decide_eq_true_eq]
          rcases List.mem_cons.1 hu with rfl | hu
          · omega
          · have hle := hg u hu
            omega
        rw [List.filter_append, List.filter_cons_of_pos (by simpa using hf), hbehind]
        simp [hf]
      · rw [List.filter_append, List.filter_cons_of_neg (by simpa using hf)]
        simp [hf]
    · rw [List.cons_append, List.filter_cons, List.filter_cons, ih hr]

/-- One failure more, behind those of its entry. -/
theorem Arranges.insert {f : EntryFailure} {l sorted : List EntryFailure}
    (h : Arranges l sorted) : Arranges (l ++ [f]) (Failure.insert f sorted) where
  perm := (insert_perm f sorted).trans ((h.perm.cons f).trans (List.perm_append_singleton f l).symm)
  ordered := insert_ordered h.ordered
  stable index := by
    rw [insert_stable h.ordered, List.filter_append, h.stable, ← List.filter_append]

theorem arranges_sort (l : List EntryFailure) : Arranges l (sort l) := by
  induction l using List.reverseRecOn with
  | nil => exact ⟨.refl [], .nil, fun _ => rfl⟩
  | append_singleton l f ih =>
    have hsort : sort (l ++ [f]) = Failure.insert f (sort l) := by
      rw [sort, List.foldl_append]
      rfl
    rw [hsort]
    exact ih.insert

theorem index_le_of_mem {f g : EntryFailure} {r : List EntryFailure}
    (h : (f :: r).Pairwise fun f g => f.index ≤ g.index) (hg : g ∈ f :: r) : f.index ≤ g.index := by
  rcases List.mem_cons.1 hg with rfl | hg
  · exact Nat.le_refl _
  · exact (List.pairwise_cons.1 h).1 g hg

theorem mem_iff_of_filter_eq {l m : List EntryFailure}
    (h : ∀ index, l.filter (·.index = index) = m.filter (·.index = index)) (f : EntryFailure) :
    f ∈ l ↔ f ∈ m := by
  have hfilter : f ∈ l.filter (·.index = f.index) ↔ f ∈ m.filter (·.index = f.index) := by
    rw [h]
  simpa [List.mem_filter] using hfilter

/-- Failures in the order of their entries are known by what each entry has. -/
theorem eq_of_filter_eq {l m : List EntryFailure} (hl : l.Pairwise fun f g => f.index ≤ g.index)
    (hm : m.Pairwise fun f g => f.index ≤ g.index)
    (h : ∀ index, l.filter (·.index = index) = m.filter (·.index = index)) : l = m := by
  induction l generalizing m with
  | nil =>
    have hmem := mem_iff_of_filter_eq h
    cases m with
    | nil => rfl
    | cons g s => exact absurd ((hmem g).2 List.mem_cons_self) List.not_mem_nil
  | cons f r ih =>
    have hmem := mem_iff_of_filter_eq h
    cases m with
    | nil => exact absurd ((hmem f).1 List.mem_cons_self) List.not_mem_nil
    | cons g s =>
      -- each first failure is somewhere in the other list, so both are of one entry
      have hle := index_le_of_mem hl ((hmem g).2 List.mem_cons_self)
      have hge := index_le_of_mem hm ((hmem f).1 List.mem_cons_self)
      have hindex : g.index = f.index := Nat.le_antisymm hge hle
      have hfirst := h f.index
      rw [List.filter_cons_of_pos (by simp), List.filter_cons_of_pos (by simpa using hindex)]
        at hfirst
      obtain ⟨rfl, -⟩ := List.cons.inj hfirst
      have hrest : ∀ index, r.filter (·.index = index) = s.filter (·.index = index) := by
        intro index
        have hboth := h index
        rw [List.filter_cons, List.filter_cons] at hboth
        split at hboth
        · exact (List.cons.inj hboth).2
        · exact hboth
      rw [ih (List.pairwise_cons.1 hl).2 (List.pairwise_cons.1 hm).2 hrest]

/-- **There is one way to arrange failures, and this is how they are sorted.** -/
theorem arranges_iff {l sorted : List EntryFailure} : Arranges l sorted ↔ sort l = sorted := by
  constructor
  · intro h
    have hsort := arranges_sort l
    exact eq_of_filter_eq hsort.ordered h.ordered fun index =>
      (hsort.stable index).trans (h.stable index).symm
  · rintro rfl
    exact arranges_sort l

/-- Where each entry has one failure at most, the order in which they came does not count. -/
theorem sort_eq_of_perm {l other : List EntryFailure} (hperm : other.Perm l)
    (hnodup : (l.map EntryFailure.index).Nodup) : sort other = sort l := by
  have hother := arranges_sort other
  have hl := arranges_sort l
  refine List.Perm.eq_of_pairwise ?_ hother.ordered hl.ordered
    (hother.perm.trans (hperm.trans hl.perm.symm))
  intro f g hf hg hle hge
  have hmemf : f ∈ l := hperm.mem_iff.1 (hother.perm.mem_iff.1 hf)
  have hmemg : g ∈ l := hl.perm.mem_iff.1 hg
  exact List.inj_on_of_nodup_map hnodup hmemf hmemg (Nat.le_antisymm hle hge)

end Failure

/-! ## Texts -/

/-- The text of one failure: its place, the name and the text of the cause. -/
inductive EntryFailure.Tells : EntryFailure → String → Prop
  | mk {cause : Cause} {text : String} (index : Nat) (name : String) (h : cause.Tells text) :
      Tells ⟨index, name, cause⟩ ("secrets[" ++ toString index ++ "] \"" ++ name ++ "\": " ++ text)

theorem EntryFailure.tells_iff {f : EntryFailure} {s : String} : f.Tells s ↔ f.text = s := by
  constructor
  · intro h
    cases h with
    | mk index name h =>
      rw [← Cause.tells_iff.1 h]
      rfl
  · rintro rfl
    exact .mk f.index f.resourceName f.cause.tells_message

namespace Failure

/-- The texts of failures with semicolons between them. -/
inductive Enumerates : List EntryFailure → String → Prop
  | last {f : EntryFailure} {s : String} (h : f.Tells s) : Enumerates [f] s
  | more {f : EntryFailure} {r : List EntryFailure} {s t : String} (h : f.Tells s)
      (ht : Enumerates r t) : Enumerates (f :: r) (s ++ "; " ++ t)

theorem Enumerates.ne_nil {l : List EntryFailure} {s : String} (h : Enumerates l s) : l ≠ [] := by
  cases h with
  | last _ | more _ _ => exact List.cons_ne_nil _ _

theorem enumerates_iff {l : List EntryFailure} {s : String} :
    Enumerates l s ↔ l ≠ [] ∧ String.intercalate "; " (l.map EntryFailure.text) = s := by
  constructor
  · intro h
    refine ⟨h.ne_nil, ?_⟩
    induction h with
    | last h => rw [List.map_singleton, String.intercalate_singleton, EntryFailure.tells_iff.1 h]
    | more h ht ih =>
      rw [List.map_cons, String.intercalate_cons_of_ne_nil (by simpa using ht.ne_nil), ih,
        EntryFailure.tells_iff.1 h]
  · rintro ⟨hne, rfl⟩
    induction l with
    | nil => exact absurd rfl hne
    | cons f r ih =>
      have hf : f.Tells f.text := EntryFailure.tells_iff.2 rfl
      by_cases hr : r = []
      · rw [hr, List.map_singleton, String.intercalate_singleton]
        exact .last hf
      · rw [List.map_cons, String.intercalate_cons_of_ne_nil (by simpa using hr)]
        exact .more hf (ih hr)

/-! ## Failures put together -/

theorem ofList?_eq_none_iff {l : List EntryFailure} {total : Nat} :
    ofList? l total = none ↔ l = [] := by
  rw [ofList?, ite_eq_left_iff]
  simp

theorem ofList?_eq_some_iff {l : List EntryFailure} {total : Nat} {f : Failure} :
    ofList? l total = some f ↔ l ≠ [] ∧ f.total = total ∧ Arranges l f.failures := by
  obtain ⟨failures, count⟩ := f
  cases l with
  | nil => simp [ofList?]
  | cons g r => simp [ofList?, arranges_iff, and_comm, eq_comm]

/-- What is told of failures: how many there are, of how many entries, and then all of them. -/
theorem exists_enumerates {f : Failure} (h : f.failures ≠ []) : ∃ listed,
    Enumerates f.failures listed ∧ f.message = "failed to resolve " ++ toString f.failures.length ++
      " of " ++ toString f.total ++ " secrets: " ++ listed :=
  ⟨_, enumerates_iff.2 ⟨h, rfl⟩, rfl⟩

/-- **Failures are put together without loss, and in an order that depends on their entries only.**
There is nothing to report exactly when nothing failed. Otherwise all failures are reported, in the
order of their entries, those of one entry as they came: this is one order for all ways in which
failures of different entries can come. The text tells how many there are and has the text of each
of them in this order, with the name and the cause as they are. -/
theorem aggregates_in_order (l : List EntryFailure) (total : Nat) :
    (ofList? l total = none ↔ l = []) ∧
    (∀ f, ofList? l total = some f ↔ l ≠ [] ∧ f.total = total ∧ Arranges l f.failures) ∧
    (∀ f, ofList? l total = some f → f.size = l.length ∧
      ∃ listed, Enumerates f.failures listed ∧ f.message = "failed to resolve " ++
        toString l.length ++ " of " ++ toString total ++ " secrets: " ++ listed) ∧
    ((l.map EntryFailure.index).Nodup → ∀ other, other.Perm l →
      ofList? other total = ofList? l total) := by
  refine ⟨ofList?_eq_none_iff, fun f => ofList?_eq_some_iff, fun f hf => ?_,
    fun hnodup other hperm => ?_⟩
  · obtain ⟨hne, rfl, harranges⟩ := ofList?_eq_some_iff.1 hf
    have hlength := harranges.perm.length_eq
    have hfailures : f.failures ≠ [] := fun h => hne (List.Perm.nil_eq (h ▸ harranges.perm)).symm
    rw [← hlength]
    exact ⟨rfl, exists_enumerates hfailures⟩
  · rw [ofList?, ofList?, sort_eq_of_perm hperm hnodup, hperm.isEmpty_eq]

/-- Three failures, two of them of one entry, with what is told of them, and two that may come in
either order. -/
theorem aggregates_in_order_ties :
    let denied : EntryFailure :=
      ⟨2, "projects/p/secrets/b/versions/1", .backend ⟨.permissionDenied, "no access"⟩⟩
    let disabled : EntryFailure :=
      ⟨1, "projects/p/secrets/a/versions/1", .backend ⟨.failedPrecondition, "disabled"⟩⟩
    let stopped : EntryFailure := ⟨1, "projects/p/secrets/a/versions/1", .cancelled⟩
    let f : Failure := ⟨[disabled, stopped, denied], 3⟩
    let listed := "secrets[1] \"projects/p/secrets/a/versions/1\": " ++
      "failed to access secret version: code = FailedPrecondition desc = disabled; " ++
      "secrets[1] \"projects/p/secrets/a/versions/1\": fetch cancelled before completion; " ++
      "secrets[2] \"projects/p/secrets/b/versions/1\": " ++
      "failed to access secret version: code = PermissionDenied desc = no access"
    ofList? [denied, disabled, stopped] 3 = some f ∧
      Arranges [denied, disabled, stopped] f.failures ∧ Enumerates f.failures listed ∧
      f.message = "failed to resolve 3 of 3 secrets: " ++ listed ∧
      ([denied, disabled].map EntryFailure.index).Nodup ∧
      ofList? [disabled, denied] 3 = ofList? [denied, disabled] 3 := by
  intro denied disabled stopped f listed
  have hf : ofList? [denied, disabled, stopped] 3 = some f := rfl
  have hnodup : ([denied, disabled].map EntryFailure.index).Nodup := by decide
  obtain ⟨-, hsorted, htext, -⟩ := aggregates_in_order [denied, disabled, stopped] 3
  obtain ⟨-, -, -, hany⟩ := aggregates_in_order [denied, disabled] 3
  obtain ⟨-, told, htold, hmessage⟩ := htext f hf
  have hlisted : told = listed := by
    rw [← (enumerates_iff.1 htold).2]
    decide +kernel
  subst hlisted
  have hhead : "failed to resolve " ++ toString 3 ++ " of " ++ toString 3 ++ " secrets: " =
      "failed to resolve 3 of 3 secrets: " := by decide
  refine ⟨hf, ((hsorted f).1 hf).2.2, htold, ?_, hnodup,
    hany hnodup [disabled, denied] (.swap denied disabled [])⟩
  rw [← hhead]
  exact hmessage

end Failure

end SecretMount.Mount
