import SecretMount.Mount.Schedule

/-!
# Entries wait for slots

* `Schedule.length_slotsFrom`, `Schedule.finish_of_slotsFrom` : every job has its times, and
  finishes when it says;
* `Schedule.start_of_slots` : with `count` slots, a job starts when the job `count` places in front
  of it has finished and all jobs further in front have, too; `Schedule.finish_le_start` and
  `Schedule.start_eq_zero` are what follows for two jobs and for the first ones;
* `Schedule.elapsed_le_iff`, `Schedule.elapsed_of_constant` : the time that all jobs take, which for
  jobs of one length is a multiple of it.
-/

namespace SecretMount.Mount.Schedule

theorem length_slotsFrom (count : Nat) : ∀ (jobs : List Job) (p : Pool),
    (slotsFrom count p jobs).length = jobs.length
  | [], _ => rfl
  | job :: r, p => by
    rw [slotsFrom, List.length_cons, List.length_cons, length_slotsFrom count r]

theorem length_slots (count : Nat) (jobs : List Job) : (slots count jobs).length = jobs.length :=
  length_slotsFrom count jobs .empty

theorem finish_of_slotsFrom (count : Nat) : ∀ (jobs : List Job) (p : Pool) {i : Nat} {job : Job}
    {s : Slot}, jobs[i]? = some job → (slotsFrom count p jobs)[i]? = some s → s.finish = job s.start
  | first :: r, p, 0, job, s, hjob, hs => by
    cases hjob
    cases hs
    rfl
  | first :: r, p, i + 1, job, s, hjob, hs => by
    rw [slotsFrom, List.getElem?_cons_succ] at hs
    rw [List.getElem?_cons_succ] at hjob
    exact finish_of_slotsFrom count r _ hjob hs

/-! ## Starts -/

/-- The finish times of the window and then of the jobs that follow are those of all jobs that may
still be waited for. The window holds those in front that have slots, so that there are at most
`count` of them. -/
theorem start_of_slotsFrom {count : Nat} (hcount : 0 < count) : ∀ (jobs : List Job) (p : Pool)
    {i : Nat} {s : Slot}, p.window.length ≤ count → (slotsFrom count p jobs)[i]? = some s →
    s.start = ((p.window ++ (slotsFrom count p jobs).map Slot.finish).take
      (p.window.length + i + 1 - count)).foldl max p.now
  | job :: r, p, i, s, hwindow, hs => by
    by_cases hfree : p.window.length < count
    · -- a slot is free: the window grows by the job, and the list of finish times stays the same
      have hwait : p.wait count = p := by simp [Pool.wait, hfree]
      simp only [slotsFrom, hwait] at hs ⊢
      cases i with
      | zero =>
        cases hs
        have hnone : p.window.length + 0 + 1 - count = 0 := by omega
        rw [hnone, List.take_zero, List.foldl_nil]
      | succ i =>
        rw [List.getElem?_cons_succ] at hs
        have hgrown : (p.start job).window.length = p.window.length + 1 := by simp [Pool.start]
        rw [start_of_slotsFrom hcount r (p.start job) (by omega) hs, hgrown]
        simp only [Pool.start, List.map_cons, List.append_assoc, List.singleton_append]
        congr 2
        omega
    · -- all slots are taken: the first job of the window leaves it, at the new time or before
      obtain ⟨first, rest, hcons⟩ : ∃ first rest, p.window = first :: rest :=
        List.exists_cons_of_length_pos (by omega)
      rw [hcons, List.length_cons] at hwindow hfree
      have hwait : p.wait count = ⟨max p.now first, rest⟩ := by simp [Pool.wait, hcons, hfree]
      simp only [slotsFrom, hwait] at hs ⊢
      have htake : p.window.length + i + 1 - count = i + 1 := by
        rw [hcons, List.length_cons]
        omega
      rw [htake, hcons, List.cons_append, List.take_succ_cons, List.foldl_cons]
      cases i with
      | zero =>
        cases hs
        rfl
      | succ i =>
        rw [List.getElem?_cons_succ] at hs
        have hfull : (Pool.start job ⟨max p.now first, rest⟩).window.length = count := by
          simp only [Pool.start, List.length_append, List.length_singleton]
          omega
        have hsucc : count + i + 1 - count = i + 1 := by omega
        rw [start_of_slotsFrom hcount r _ (by omega) hs, hfull, hsucc]
        simp only [Pool.start, List.map_cons, List.append_assoc, List.singleton_append]

variable {count : Nat} {jobs : List Job} {i j : Nat} {s t : Slot}

/-- **With `count` slots, a job starts when all have finished that are `count` places in front of
it or more.** -/
theorem start_of_slots (hcount : 0 < count) (hs : (slots count jobs)[i]? = some s) :
    s.start = elapsed ((slots count jobs).take (i + 1 - count)) := by
  rw [start_of_slotsFrom hcount jobs .empty (Nat.zero_le _) hs, elapsed, List.map_take, slots]
  simp [Pool.empty]

theorem foldl_max_le_iff {l : List Nat} {first bound : Nat} :
    l.foldl max first ≤ bound ↔ first ≤ bound ∧ ∀ n ∈ l, n ≤ bound := by
  induction l generalizing first with
  | nil => simp
  | cons n r ih => rw [List.foldl_cons, ih, Nat.max_le, List.forall_mem_cons, and_assoc]

theorem elapsed_le_iff {l : List Slot} {bound : Nat} :
    elapsed l ≤ bound ↔ ∀ s ∈ l, s.finish ≤ bound := by
  simp [elapsed, foldl_max_le_iff]

theorem finish_le_start (hcount : 0 < count) (hj : j + count ≤ i)
    (ht : (slots count jobs)[j]? = some t) (hs : (slots count jobs)[i]? = some s) :
    t.finish ≤ s.start := by
  have hmem : t ∈ (slots count jobs).take (i + 1 - count) := by
    refine List.mem_of_getElem? (i := j) ?_
    rw [List.getElem?_take_of_lt (by omega), ht]
  rw [start_of_slots hcount hs]
  exact elapsed_le_iff.1 (Nat.le_refl _) t hmem

theorem start_eq_zero (hcount : 0 < count) (hi : i < count)
    (hs : (slots count jobs)[i]? = some s) : s.start = 0 := by
  have hnone : i + 1 - count = 0 := by omega
  rw [start_of_slots hcount hs, hnone]
  rfl

/-! ## Jobs of one length -/

section Constant

variable {length : Nat}

theorem finish_of_constant (hjobs : ∀ job ∈ jobs, ∀ now, job now = now + length)
    (hs : (slots count jobs)[i]? = some s) : s.finish = s.start + length := by
  have hi : i < jobs.length := length_slots count jobs ▸ (List.getElem?_eq_some_iff.1 hs).1
  rw [finish_of_slotsFrom count jobs .empty (List.getElem?_eq_getElem hi) hs,
    hjobs _ (List.getElem_mem hi)]

theorem group_le_group (hij : i ≤ j) : i / count * length ≤ j / count * length :=
  Nat.mul_le_mul_right _ (Nat.div_le_div_right hij)

/-- Jobs of one length start in groups of `count`. -/
theorem start_of_constant (hcount : 0 < count)
    (hjobs : ∀ job ∈ jobs, ∀ now, job now = now + length) :
    ∀ {i : Nat} {s : Slot}, (slots count jobs)[i]? = some s → s.start = i / count * length := by
  intro i
  induction i using Nat.strongRecOn with
  | ind i ih =>
    intro s hs
    by_cases hi : i < count
    · rw [start_eq_zero hcount hi hs, Nat.div_eq_of_lt hi, Nat.zero_mul]
    · -- the job `count` places in front is the last to finish of those that this one waits for
      have hgroup : i / count * length = (i - count) / count * length + length := by
        rw [Nat.div_eq_sub_div hcount (Nat.le_of_not_lt hi), Nat.succ_mul]
      rw [hgroup]
      refine Nat.le_antisymm ?_ ?_
      · rw [start_of_slots hcount hs]
        refine elapsed_le_iff.2 fun t ht => ?_
        obtain ⟨j, hj⟩ := List.mem_iff_getElem?.1 ht
        rw [List.getElem?_take] at hj
        split at hj
        · next hlt =>
          rw [finish_of_constant hjobs hj, ih j (by omega) hj]
          exact Nat.add_le_add_right (group_le_group (by omega)) _
        · cases hj
      · have hfront : i - count < (slots count jobs).length :=
          Nat.lt_of_le_of_lt (Nat.sub_le _ _) (List.getElem?_eq_some_iff.1 hs).1
        have ht := List.getElem?_eq_getElem hfront
        rw [← ih (i - count) (by omega) ht, ← finish_of_constant hjobs ht]
        exact finish_le_start hcount (by omega) ht hs

/-- **Jobs of one length take as many times this length as there are groups of `count`.** -/
theorem elapsed_of_constant (hcount : 0 < count)
    (hjobs : ∀ job ∈ jobs, ∀ now, job now = now + length) :
    elapsed (slots count jobs) = (jobs.length + count - 1) / count * length := by
  have hlen := length_slots count jobs
  cases hjob : jobs.length with
  | zero =>
    rw [List.eq_nil_of_length_eq_zero hjob, Nat.zero_add, Nat.div_eq_of_lt (by omega), Nat.zero_mul]
    rfl
  | succ n =>
    have hgroups : (n + 1 + count - 1) / count = n / count + 1 := by
      rw [Nat.add_right_comm, Nat.add_sub_cancel, Nat.add_div_right _ hcount]
    rw [hgroups, Nat.succ_mul]
    refine Nat.le_antisymm (elapsed_le_iff.2 fun s hs => ?_) ?_
    · obtain ⟨i, hi⟩ := List.mem_iff_getElem?.1 hs
      have hle := (List.getElem?_eq_some_iff.1 hi).1
      rw [finish_of_constant hjobs hi, start_of_constant hcount hjobs hi]
      exact Nat.add_le_add_right (group_le_group (by omega)) _
    · have hlast := List.getElem?_eq_getElem (l := slots count jobs) (i := n) (by omega)
      rw [← start_of_constant hcount hjobs hlast, ← finish_of_constant hjobs hlast]
      exact elapsed_le_iff.1 (Nat.le_refl _) _ (List.mem_of_getElem? hlast)

end Constant

end SecretMount.Mount.Schedule
