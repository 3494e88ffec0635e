import SecretMount.Proofs.Origin
import SecretMount.Proofs.Schedule

/-!
# Runs by the clock

The turns that the clock makes are all possible: when an entry starts it has a slot, and when its
access ends it is under way. So a request that is run by the clock is answered.

* `Mount.Earlier` : the order of timed turns, by their times and then by their ranks;
* `Mount.pairwise_timedTurns`, `Mount.mem_timedTurns` : the turns of a run are in this order, and
  they are those of the entries with the cancellation;
* `Mount.start_mem_timedTurns`, `Mount.last_mem_timedTurns` : when an entry starts and when its
  access ends;
* `Mount.Kept` : the invariant of the clock, which every prefix of a run satisfies (`Mount.kept`);
* `Mount.clocked_done` : at the end all entries have finished.
-/

namespace SecretMount.Mount

open Backend

/-! ## The order of turns -/

/-- The place of a turn among those of one time. -/
def Turn.rank : Turn → Nat
  | cancel => 0
  | start index => 2 * index + 1
  | answer index _ => 2 * index + 2
  | expire index => 2 * index + 2

def Earlier (t u : Nat × Turn) : Prop := t.1 < u.1 ∨ t.1 = u.1 ∧ t.2.rank < u.2.rank

theorem Earlier.asymm {t u : Nat × Turn} (h : Earlier t u) : ¬ Earlier u t := by
  unfold Earlier at *
  omega

theorem mem_insertTurn {t u : Nat × Turn} {l : List (Nat × Turn)} :
    u ∈ insertTurn t l ↔ u = t ∨ u ∈ l := by
  induction l with
  | nil => simp [insertTurn]
  | cons v r ih =>
    unfold insertTurn
    split
    · simp
    · simp only [List.mem_cons, ih]
      exact or_left_comm

theorem pairwise_insertTurn {t : Nat × Turn} {l : List (Nat × Turn)} (hl : l.Pairwise Earlier)
    (hrank : ∀ u ∈ l, u.2.rank < t.2.rank) : (insertTurn t l).Pairwise Earlier := by
  induction l with
  | nil => simp [insertTurn]
  | cons v r ih =>
    have hhead := (List.pairwise_cons.1 hl).1
    have hv := hrank v List.mem_cons_self
    unfold insertTurn
    split
    · next hlt =>
      refine List.pairwise_cons.2 ⟨fun u hu => ?_, hl⟩
      rcases List.mem_cons.1 hu with rfl | hu
      · exact Or.inl hlt
      · have := hhead u hu
        unfold Earlier at *
        omega
    · next hle =>
      refine List.pairwise_cons.2 ⟨fun u hu => ?_, ih (List.pairwise_cons.1 hl).2
        fun u hu => hrank u (List.mem_cons_of_mem _ hu)⟩
      rcases mem_insertTurn.1 hu with rfl | hu
      · unfold Earlier
        omega
      · exact hhead u hu

theorem mem_foldl_insertTurn {t : Nat × Turn} (l sorted : List (Nat × Turn)) :
    t ∈ l.foldl (fun l t => insertTurn t l) sorted ↔ t ∈ l ∨ t ∈ sorted := by
  induction l generalizing sorted with
  | nil => simp
  | cons u r ih =>
    rw [List.foldl_cons, ih, mem_insertTurn, List.mem_cons]
    exact or_left_comm.trans or_assoc.symm

/-- Turns that come in the order of their ranks are put in the order of their times. -/
theorem pairwise_foldl_insertTurn (l sorted : List (Nat × Turn))
    (hl : l.Pairwise fun t u => t.2.rank < u.2.rank) (hsorted : sorted.Pairwise Earlier)
    (hrank : ∀ u ∈ sorted, ∀ t ∈ l, u.2.rank < t.2.rank) :
    (l.foldl (fun l t => insertTurn t l) sorted).Pairwise Earlier := by
  induction l generalizing sorted with
  | nil => exact hsorted
  | cons t r ih =>
    obtain ⟨hhead, hr⟩ := List.pairwise_cons.1 hl
    refine ih _ hr (pairwise_insertTurn hsorted fun u hu => hrank u hu t List.mem_cons_self) ?_
    intro u hu v hv
    rcases mem_insertTurn.1 hu with rfl | hu
    · exact hhead v hv
    · exact hrank u hu v (List.mem_cons_of_mem _ hv)

/-- What comes earlier stands in front. -/
theorem mem_of_earlier {t u : Nat × Turn} {before after : List (Nat × Turn)}
    (h : (before ++ u :: after).Pairwise Earlier) (ht : t ∈ before ++ u :: after)
    (htu : Earlier t u) : t ∈ before := by
  rcases List.mem_append.1 ht with ht | ht
  · exact ht
  · rcases List.mem_cons.1 ht with rfl | ht
    · exact absurd htu htu.asymm
    · have hafter := (List.pairwise_cons.1 (List.pairwise_append.1 h).2.1).1 t ht
      exact absurd htu hafter.asymm

/-! ## The turns of a request -/

variable (table : RoutingTable Handle) (request : Request) (limits : Limits)

theorem rank_lastTurn (index : Nat) (name : VersionName) (h : Handle) :
    (limits.lastTurn index name h).rank = 2 * index + 2 := by
  unfold Limits.lastTurn
  split <;> rfl

variable {table limits}

/-- An entry has one turn for its start, and one for the end of its access if it has a route. -/
theorem mem_entryTurns {index start : Nat} {e : Entry} {t : Nat × Turn} :
    t ∈ entryTurns table limits index e start ↔ t = (start, .start index) ∨
      ∃ name handle, route table e = .ok (name, handle) ∧
        t = (start + limits.duration (handle.latency name.text),
          limits.lastTurn index name handle) := by
  unfold entryTurns
  rw [List.mem_cons]
  refine or_congr_right ?_
  cases hroute : route table e with
  | error cause => simp
  | ok route =>
    obtain ⟨name, handle⟩ := route
    simp

theorem rank_of_mem_entryTurns {index start : Nat} {e : Entry} {t : Nat × Turn}
    (h : t ∈ entryTurns table limits index e start) :
    2 * index < t.2.rank ∧ t.2.rank < 2 * index + 3 := by
  rcases mem_entryTurns.1 h with rfl | ⟨name, handle, -, rfl⟩
  · simp only [Turn.rank]
    omega
  · simp only [rank_lastTurn]
    omega

variable (table limits)

theorem pairwise_entryTurns (index start : Nat) (e : Entry) :
    (entryTurns table limits index e start).Pairwise fun t u => t.2.rank < u.2.rank := by
  unfold entryTurns
  split
  · exact List.pairwise_singleton _ _
  · next name handle _ =>
    rw [List.pairwise_pair, rank_lastTurn]
    exact Nat.lt_succ_self _

theorem pairwise_zip_slots (slots : List Schedule.Slot) :
    (request.entries.zipIdx.zip slots).Pairwise fun a b => a.1.2 < b.1.2 := by
  rw [List.pairwise_iff_getElem]
  intro i j hi hj hij
  simpa using hij

variable {table request limits}

theorem mem_zip_slots {e : Entry} {i : Nat} {s : Schedule.Slot} {slots : List Schedule.Slot} :
    ((e, i), s) ∈ request.entries.zipIdx.zip slots ↔
      request.entries[i]? = some e ∧ slots[i]? = some s := by
  rw [List.mem_iff_getElem?]
  simp only [List.getElem?_zip_eq_some, List.getElem?_zipIdx, Option.map_eq_some_iff, Prod.mk.injEq]
  constructor
  · rintro ⟨j, ⟨a, ha, rfl, hj⟩, hs⟩
    obtain rfl : j = i := by omega
    exact ⟨ha, hs⟩
  · rintro ⟨he, hs⟩
    exact ⟨i, ⟨e, he, rfl, by omega⟩, hs⟩

/-- The turns of a run are the cancellation and those of all entries. -/
theorem mem_timedTurns {cancel : Option Nat} {t : Nat × Turn} :
    t ∈ timedTurns table request limits cancel ↔
      (∃ c, cancel = some c ∧ t = (c, .cancel)) ∨
      ∃ i e s, request.entries[i]? = some e ∧ (slots table request limits cancel)[i]? = some s ∧
        t ∈ entryTurns table limits i e s.start := by
  unfold timedTurns
  rw [mem_foldl_insertTurn, List.mem_append, List.mem_flatMap]
  simp only [List.not_mem_nil, or_false, Option.mem_toList, Option.map_eq_some_iff]
  refine or_congr ?_ ?_
  · constructor
    · rintro ⟨c, hc, rfl⟩
      exact ⟨c, hc, rfl⟩
    · rintro ⟨c, hc, rfl⟩
      exact ⟨c, hc, rfl⟩
  · constructor
    · rintro ⟨⟨⟨e, i⟩, s⟩, hmem, ht⟩
      obtain ⟨he, hs⟩ := mem_zip_slots.1 hmem
      exact ⟨i, e, s, he, hs, ht⟩
    · rintro ⟨i, e, s, he, hs, ht⟩
      exact ⟨((e, i), s), mem_zip_slots.2 ⟨he, hs⟩, ht⟩

/-- An entry starts at its time. -/
theorem start_mem_timedTurns {cancel : Option Nat} {i : Nat} {e : Entry} {s : Schedule.Slot}
    (he : request.entries[i]? = some e) (hs : (slots table request limits cancel)[i]? = some s) :
    (s.start, .start i) ∈ timedTurns table request limits cancel :=
  mem_timedTurns.2 (Or.inr ⟨i, e, s, he, hs, mem_entryTurns.2 (Or.inl rfl)⟩)

/-- The access of an entry ends at its time. -/
theorem last_mem_timedTurns {cancel : Option Nat} {i : Nat} {e : Entry} {s : Schedule.Slot}
    {name : VersionName} {handle : Handle} (he : request.entries[i]? = some e)
    (hs : (slots table request limits cancel)[i]? = some s)
    (hroute : route table e = .ok (name, handle)) :
    (s.start + limits.duration (handle.latency name.text), limits.lastTurn i name handle) ∈
      timedTurns table request limits cancel :=
  mem_timedTurns.2 (Or.inr ⟨i, e, s, he, hs,
    mem_entryTurns.2 (Or.inr ⟨name, handle, hroute, rfl⟩)⟩)

variable (table request limits)

/-- **The turns of a run are in the order of the clock.** -/
theorem pairwise_timedTurns (cancel : Option Nat) :
    (timedTurns table request limits cancel).Pairwise Earlier := by
  refine pairwise_foldl_insertTurn _ [] ?_ .nil (by simp)
  refine List.pairwise_append.2 ⟨?_, ?_, ?_⟩
  · cases cancel <;> simp
  · refine List.pairwise_flatMap.2 ⟨?_, ?_⟩
    · rintro ⟨⟨e, i⟩, s⟩ -
      exact pairwise_entryTurns table limits i s.start e
    refine (pairwise_zip_slots request _).imp ?_
    rintro ⟨⟨e, i⟩, s⟩ ⟨⟨d, j⟩, r⟩ hij t ht u hu
    have h1 := rank_of_mem_entryTurns ht
    have h2 := rank_of_mem_entryTurns hu
    simp only at hij
    omega
  · intro t ht u hu
    simp only [Option.mem_toList, Option.map_eq_some_iff] at ht
    obtain ⟨c, -, rfl⟩ := ht
    obtain ⟨⟨⟨e, i⟩, s⟩, -, hu⟩ := List.mem_flatMap.1 hu
    have := rank_of_mem_entryTurns hu
    show 0 < u.2.rank
    omega

variable {table request limits}

/-- A run is cancelled when its request is. -/
theorem cancel_mem_timedTurns {cancel : Option Nat} :
    .cancel ∈ (timedTurns table request limits cancel).map Prod.snd ↔ ∃ c, cancel = some c := by
  rw [List.mem_map]
  constructor
  · rintro ⟨t, ht, hcancel⟩
    rcases mem_timedTurns.1 ht with ⟨c, hc, -⟩ | ⟨i, e, s, -, -, hmem⟩
    · exact ⟨c, hc⟩
    · -- the turns of entries have higher ranks
      have hrank := rank_of_mem_entryTurns hmem
      rw [hcancel, Turn.rank] at hrank
      omega
  · rintro ⟨c, hc⟩
    exact ⟨(c, .cancel), mem_timedTurns.2 (Or.inl ⟨c, hc, rfl⟩), rfl⟩

/-- By the clock, an access is answered by its handle and in time. -/
theorem answer_mem_timedTurns {cancel : Option Nat} {i : Nat} {e : Entry} {reply : Reply}
    (he : request.entries[i]? = some e)
    (h : .answer i reply ∈ (timedTurns table request limits cancel).map Prod.snd) :
    ∃ name handle, route table e = .ok (name, handle) ∧
      limits.allows (handle.latency name.text) = true ∧ reply = handle.reply name.text := by
  obtain ⟨⟨time, turn⟩, ht, rfl⟩ := List.mem_map.1 h
  rcases mem_timedTurns.1 ht with ⟨c, -, hcancel⟩ | ⟨j, d, s, hd, -, hturn⟩
  · cases hcancel
  · rcases mem_entryTurns.1 hturn with hstart | ⟨name, handle, hroute, hlast⟩
    · cases hstart
    · simp only [Limits.lastTurn, Prod.mk.injEq] at hlast
      obtain ⟨-, hlast⟩ := hlast
      split at hlast
      · next hallows =>
        cases hlast
        cases he.symm.trans hd
        exact ⟨name, handle, hroute, hallows, rfl⟩
      · cases hlast

/-! ## The times of an entry -/

variable (table request limits)

theorem start_le_finishTime (cancel : Option Nat) (e : Entry) (start : Nat) :
    start ≤ finishTime table limits cancel e start := by
  unfold finishTime
  split
  · exact Nat.le_refl _
  · simp only
    split
    · split <;> omega
    · omega

theorem exists_slot {request : Request} (cancel : Option Nat) {i : Nat} {e : Entry}
    (he : request.entries[i]? = some e) :
    ∃ s, (slots table request limits cancel)[i]? = some s := by
  have hi : i < (slots table request limits cancel).length := by
    rw [slots, Schedule.length_slots, List.length_map]
    exact (List.getElem?_eq_some_iff.1 he).1
  exact ⟨_, List.getElem?_eq_getElem hi⟩

variable {table request limits}

/-- An access ends because it was ended or because the request was cancelled. -/
theorem ends_of_finishTime_le {cancel : Option Nat} {e : Entry} {start bound : Nat}
    {name : VersionName} {handle : Handle} (hroute : route table e = .ok (name, handle))
    (h : finishTime table limits cancel e start ≤ bound) :
    start + limits.duration (handle.latency name.text) ≤ bound ∨
      ∃ c, cancel = some c ∧ c ≤ bound := by
  simp only [finishTime, hroute] at h
  cases cancel with
  | none => exact Or.inl h
  | some c =>
    simp only at h
    split at h
    · exact Or.inr ⟨c, rfl, by omega⟩
    · by_cases hc : c ≤ bound
      · exact Or.inr ⟨c, rfl, hc⟩
      · exact Or.inl (by omega)

theorem slots_pos (l : Limits) : 0 < l.slots := by
  unfold Limits.slots
  omega

theorem finish_of_slots {cancel : Option Nat} {i : Nat} {e : Entry} {s : Schedule.Slot}
    (he : request.entries[i]? = some e) (hs : (slots table request limits cancel)[i]? = some s) :
    s.finish = finishTime table limits cancel e s.start := by
  have hjob : (request.entries.map (finishTime table limits cancel))[i]? =
      some (finishTime table limits cancel e) := by
    rw [List.getElem?_map, he, Option.map_some]
  exact Schedule.finish_of_slotsFrom _ _ _ hjob hs

/-! ## The turns are possible -/

namespace Progress

theorem le_takeWhile {α : Type} {P : α → Bool} : ∀ {l : List α} {k : Nat},
    (∀ j < k, ∃ x, l[j]? = some x ∧ P x = true) → k ≤ (l.takeWhile P).length
  | _, 0, _ => Nat.zero_le _
  | [], k + 1, h => by
    obtain ⟨x, hx, -⟩ := h 0 (Nat.succ_pos k)
    cases hx
  | y :: l, k + 1, h => by
    obtain ⟨x, hx, hP⟩ := h 0 (Nat.succ_pos k)
    cases hx
    rw [List.takeWhile_cons, if_pos hP, List.length_cons]
    refine Nat.succ_le_succ (le_takeWhile fun j hj => ?_)
    simpa using h (j + 1) (Nat.succ_lt_succ hj)

/-- An entry has a slot when all have finished that are as many places in front of it as there are
slots, or more. -/
theorem hasSlot_of_finished {p : Progress} {i : Nat}
    (h : ∀ j, j + limits.slots ≤ i → ∃ o, p.tasks[j]? = some (.finished o)) :
    p.hasSlot limits i = true := by
  have hpos := slots_pos limits
  have htaken : i + 1 - limits.slots ≤ p.taken := by
    refine le_takeWhile fun j hj => ?_
    obtain ⟨o, ho⟩ := h j (by omega)
    exact ⟨_, ho, rfl⟩
  simp only [hasSlot, decide_eq_true_eq]
  omega

/-- An entry with a slot starts. -/
theorem not_waiting_step_start {p : Progress} {i : Nat} {e : Entry}
    (he : request.entries[i]? = some e) (hslot : p.hasSlot limits i = true) :
    (step table request limits p (.start i)).tasks[i]? ≠ some .waiting := by
  intro hwaiting
  have hbefore := (step_change table request limits p (.start i)).started hwaiting
  have hi := (List.getElem?_eq_some_iff.1 hbefore).1
  simp only [step, he, hbefore, hslot, if_true, start] at hwaiting
  split at hwaiting
  · simp [setTask, hi] at hwaiting
  · split at hwaiting <;> simp [setTask, hi] at hwaiting

/-- The last turn of an access ends it. -/
theorem finished_step_lastTurn {p : Progress} {i : Nat} {e : Entry} {name asked : VersionName}
    {handle : Handle} (he : request.entries[i]? = some e)
    (ht : p.tasks[i]? = some (.fetching asked)) :
    ∃ o, (step table request limits p (limits.lastTurn i name handle)).tasks[i]? =
      some (.finished o) := by
  have hi := (List.getElem?_eq_some_iff.1 ht).1
  unfold Limits.lastTurn
  split
  · simp only [step, he, ht, answer, setTask]
    exact ⟨_, List.getElem?_set_self hi⟩
  · next hlate =>
    cases hlimit : limits.timeout with
    | none => simp [Limits.allows, hlimit] at hlate
    | some limit =>
      simp only [step, ht, hlimit, setTask]
      exact ⟨_, List.getElem?_set_self hi⟩

/-- An entry whose turns are over has finished. -/
theorem finished_of_over {turns : List Turn} {i : Nat} {e : Entry}
    (he : request.entries[i]? = some e)
    (hstart : (perform table request limits turns).tasks[i]? ≠ some .waiting)
    (hover : ∀ name handle, route table e = .ok (name, handle) →
      (∃ o, (perform table request limits turns).tasks[i]? = some (.finished o)) ∨
        .cancel ∈ turns) :
    ∃ o, (perform table request limits turns).tasks[i]? = some (.finished o) := by
  obtain ⟨task, htask⟩ : ∃ task, (perform table request limits turns).tasks[i]? = some task :=
    exists_task he
  cases stands turns he htask with
  | waiting => exact absurd htask hstart
  | fetching hroute hcancel =>
    rcases hover _ _ hroute with hfinished | hmem
    · exact hfinished
    · exact absurd hmem hcancel
  | finished => exact ⟨_, htask⟩

end Progress

/-! ## The invariant of the clock -/

variable (table request limits)

/-- Entries whose starts are over have started, and those whose last turns are over have
finished. -/
structure Kept (cancel : Option Nat) (turns : List (Nat × Turn)) (p : Progress) : Prop where
  started : ∀ i e s, request.entries[i]? = some e →
    (slots table request limits cancel)[i]? = some s → (s.start, .start i) ∈ turns →
    p.tasks[i]? ≠ some .waiting
  finished : ∀ i e s name handle, request.entries[i]? = some e →
    (slots table request limits cancel)[i]? = some s → route table e = .ok (name, handle) →
    (s.start + limits.duration (handle.latency name.text), limits.lastTurn i name handle) ∈ turns →
    ∃ o, p.tasks[i]? = some (.finished o)

variable {table request limits} {cancel : Option Nat}

/-- At the time of a start, all entries that are as many places in front as there are slots have
finished. -/
theorem Kept.finished_of_slot {before after : List (Nat × Turn)} {i j : Nat} {e : Entry}
    {s : Schedule.Slot}
    (hkept : Kept table request limits cancel before
      (Progress.perform table request limits (before.map Prod.snd)))
    (hturns : timedTurns table request limits cancel = before ++ (s.start, .start i) :: after)
    (he : request.entries[i]? = some e) (hs : (slots table request limits cancel)[i]? = some s)
    (hj : j + limits.slots ≤ i) :
    ∃ o, (Progress.perform table request limits (before.map Prod.snd)).tasks[j]? =
      some (.finished o) := by
  have hpos := slots_pos limits
  have hi := (List.getElem?_eq_some_iff.1 he).1
  obtain ⟨d, hd⟩ : ∃ d, request.entries[j]? = some d := ⟨_, List.getElem?_eq_getElem (by omega)⟩
  obtain ⟨r, hr⟩ := exists_slot table limits cancel hd
  have hbound : r.finish ≤ s.start := Schedule.finish_le_start hpos hj hr hs
  rw [finish_of_slots hd hr] at hbound
  have hrstart := start_le_finishTime table limits cancel d r.start
  have hsorted := pairwise_timedTurns table request limits cancel
  rw [hturns] at hsorted
  -- a turn of the run that comes before the start of the entry at `i` stands in `before`
  have hfront : ∀ {t : Nat × Turn}, t ∈ timedTurns table request limits cancel → t.1 ≤ s.start →
      t.2.rank < 2 * i + 1 → t ∈ before := by
    intro t ht htime hrank
    rw [hturns] at ht
    refine mem_of_earlier hsorted ht ?_
    show t.1 < s.start ∨ t.1 = s.start ∧ t.2.rank < 2 * i + 1
    omega
  have hstart : (r.start, .start j) ∈ before := by
    refine hfront (start_mem_timedTurns hd hr) ?_ ?_
    · simp only
      omega
    · simp only [Turn.rank]
      omega
  refine Progress.finished_of_over hd (hkept.started j d r hd hr hstart) ?_
  intro name handle hroute
  rcases ends_of_finishTime_le hroute hbound with hlast | ⟨c, hc, hcle⟩
  · refine Or.inl (hkept.finished j d r name handle hd hr hroute
      (hfront (last_mem_timedTurns hd hr hroute) hlast ?_))
    rw [rank_lastTurn]
    omega
  · refine Or.inr (List.mem_map.2 ⟨(c, .cancel), hfront ?_ hcle ?_, rfl⟩)
    · exact mem_timedTurns.2 (Or.inl ⟨c, hc, rfl⟩)
    · simp only [Turn.rank]
      omega

/-- One turn of the clock keeps the invariant. -/
theorem Kept.concat {before after : List (Nat × Turn)} {t : Nat × Turn}
    (hkept : Kept table request limits cancel before
      (Progress.perform table request limits (before.map Prod.snd)))
    (hturns : timedTurns table request limits cancel = before ++ t :: after) :
    Kept table request limits cancel (before ++ [t])
      (Progress.perform table request limits ((before ++ [t]).map Prod.snd)) := by
  have hchange := Progress.step_change table request limits
    (Progress.perform table request limits (before.map Prod.snd)) t.2
  rw [List.map_append, List.map_singleton, Progress.perform_concat]
  refine ⟨?_, ?_⟩
  · intro i e s he hs hmem
    rcases List.mem_append.1 hmem with hmem | hmem
    · exact fun hwaiting => hkept.started i e s he hs hmem (hchange.started hwaiting)
    · obtain rfl := List.mem_singleton.1 hmem
      exact Progress.not_waiting_step_start he
        (Progress.hasSlot_of_finished fun j hj => hkept.finished_of_slot hturns he hs hj)
  · intro i e s name handle he hs hroute hmem
    rcases List.mem_append.1 hmem with hmem | hmem
    · obtain ⟨o, ho⟩ := hkept.finished i e s name handle he hs hroute hmem
      exact ⟨o, hchange.finished ho⟩
    · obtain rfl := List.mem_singleton.1 hmem
      have hsorted := pairwise_timedTurns table request limits cancel
      have hstart := start_mem_timedTurns he hs
      rw [hturns] at hsorted hstart
      have hbefore := mem_of_earlier hsorted hstart (by
        unfold Earlier
        rw [rank_lastTurn]
        simp only [Turn.rank]
        omega)
      obtain ⟨task, htask⟩ :
          ∃ task, (Progress.perform table request limits (before.map Prod.snd)).tasks[i]? =
            some task := Progress.exists_task he
      cases task with
      | waiting => exact absurd htask (hkept.started i e s he hs hbefore)
      | fetching asked => exact Progress.finished_step_lastTurn he htask
      | finished o => exact ⟨o, hchange.finished htask⟩

theorem kept : ∀ before after : List (Nat × Turn),
    timedTurns table request limits cancel = before ++ after →
    Kept table request limits cancel before
      (Progress.perform table request limits (before.map Prod.snd)) := by
  intro before
  induction before using List.reverseRecOn with
  | nil => exact fun _ _ => ⟨fun _ _ _ _ _ h => absurd h List.not_mem_nil,
      fun _ _ _ _ _ _ _ _ h => absurd h List.not_mem_nil⟩
  | append_singleton before t ih =>
    intro after hturns
    rw [List.append_assoc, List.singleton_append] at hturns
    exact (ih (t :: after) hturns).concat hturns

/-! ## The end -/

variable (table request limits cancel)

/-- **By the clock, all entries finish.** -/
theorem clocked_done : (clocked table request limits cancel).Done := by
  have hkept := kept (timedTurns table request limits cancel) [] (List.append_nil _).symm
  refine Progress.done_iff.2 fun i e he => ?_
  obtain ⟨s, hs⟩ := exists_slot table limits cancel he
  refine Progress.finished_of_over he (hkept.started i e s he hs (start_mem_timedTurns he hs))
    fun name handle hroute => ?_
  exact Or.inl (hkept.finished i e s name handle he hs hroute (last_mem_timedTurns he hs hroute))

end SecretMount.Mount
