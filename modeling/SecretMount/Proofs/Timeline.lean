import Mathlib.Data.List.TakeWhile
import SecretMount.Proofs.Access

/-!
# What a run does when

By the clock, each entry waits until its start, fetches until its finish, and stays finished. It
never fetches beside more others than there are slots for.

* `Progress.inFlight` : the number of accesses under way; after any turns, there is a slot for each
  (`Progress.inFlight_le_slots`);
* `Mount.progressAt` : the progress of a request at a time;
* `Limits.Lasts` : how long an access lasts under a limit;
* `Task.At`, `Mount.task_at` : the task of an entry at any time is what its times say;
* `Mount.done_progressAt_iff` : the request is answered at the latest finish time;
* `Mount.runs_on_schedule` : the times, the bound, and how long accesses of one length take.
-/

namespace SecretMount.Mount

open Backend

variable {table : RoutingTable Handle} {request : Request} {limits : Limits}

/-! ## Accesses under way -/

def Task.isFetching : Task → Bool
  | fetching _ => true
  | _ => false

/-- A list has no more of something than the part of it where all of it stands is long. -/
theorem countP_le_of_window {α : Type} {P : α → Bool} {l : List α} (first size : Nat)
    (h : ∀ i x, l[i]? = some x → P x = true → first ≤ i ∧ i < first + size) :
    l.countP P ≤ size := by
  have hfront : (l.take first).countP P = 0 := by
    refine List.countP_eq_zero.2 fun x hx hP => ?_
    obtain ⟨i, hi⟩ := List.mem_iff_getElem?.1 hx
    rw [List.getElem?_take] at hi
    split at hi
    · have := h i x hi hP
      omega
    · cases hi
  have hback : ((l.drop first).drop size).countP P = 0 := by
    refine List.countP_eq_zero.2 fun x hx hP => ?_
    obtain ⟨i, hi⟩ := List.mem_iff_getElem?.1 hx
    rw [List.drop_drop, List.getElem?_drop] at hi
    have := h _ x hi hP
    omega
  have hwindow : ((l.drop first).take size).countP P ≤ size :=
    Nat.le_trans List.countP_le_length (List.length_take_le _ _)
  calc l.countP P
      = (l.take first).countP P + (((l.drop first).take size).countP P +
          ((l.drop first).drop size).countP P) := by
        rw [← List.countP_append, List.take_append_drop, ← List.countP_append,
          List.take_append_drop]
    _ ≤ size := by omega

namespace Progress

/-- The number of accesses that are under way. -/
def inFlight (p : Progress) : Nat := p.tasks.countP Task.isFetching

theorem finished_of_lt_taken {p : Progress} {i : Nat} (hi : i < p.taken) :
    ∃ o, p.tasks[i]? = some (.finished o) := by
  obtain ⟨rest, hrest⟩ := List.takeWhile_prefix (p := Task.isFinished) (l := p.tasks)
  obtain ⟨task, htask⟩ : ∃ task, (p.tasks.takeWhile Task.isFinished)[i]? = some task :=
    ⟨_, List.getElem?_eq_getElem hi⟩
  have hfinished := List.mem_takeWhile_imp (List.mem_of_getElem? htask)
  have hstands : (p.tasks.takeWhile Task.isFinished ++ rest)[i]? = some task := by
    rw [List.getElem?_append_left hi, htask]
  rw [hrest] at hstands
  cases task with
  | finished o => exact ⟨o, hstands⟩
  | waiting | fetching => cases hfinished

theorem Change.taken_le {p q : Progress} {t : Turn} (h : Change table request limits p t q) :
    p.taken ≤ q.taken := by
  refine le_takeWhile fun j hj => ?_
  obtain ⟨o, ho⟩ := finished_of_lt_taken hj
  exact ⟨_, h.finished ho, rfl⟩

theorem Change.exists_task {p q : Progress} {t : Turn} (h : Change table request limits p t q)
    {i : Nat} {task : Task} (hq : q.tasks[i]? = some task) : ∃ u, p.tasks[i]? = some u := by
  have hi := (List.getElem?_eq_some_iff.1 hq).1
  rw [h.length_tasks] at hi
  exact ⟨_, List.getElem?_eq_getElem hi⟩

/-- An entry that has started was told to, and it stands in the window of the slots or in front of
it: the window only moves on. -/
theorem begun (turns : List Turn) {i : Nat} {task : Task}
    (ht : (perform table request limits turns).tasks[i]? = some task) (hbegun : task ≠ .waiting) :
    .start i ∈ turns ∧ i < (perform table request limits turns).taken + limits.slots := by
  refine perform_induction table request limits (P := fun l p => ∀ i task,
    p.tasks[i]? = some task → task ≠ .waiting → .start i ∈ l ∧ i < p.taken + limits.slots) ?_ ?_
    turns i task ht hbegun
  · intro i task ht hbegun
    simp only [initial, List.getElem?_map, Option.map_eq_some_iff] at ht
    obtain ⟨_, _, rfl⟩ := ht
    exact absurd rfl hbegun
  · intro turns t q ih h i task hq hbegun
    have htaken := h.taken_le
    obtain ⟨u, hu⟩ := h.exists_task hq
    by_cases hwaiting : u = .waiting
    · subst hwaiting
      obtain ⟨rfl, hslot⟩ := h.begun hu hq hbegun
      simp only [hasSlot, decide_eq_true_eq] at hslot
      exact ⟨by simp, by omega⟩
    · obtain ⟨hmem, hlt⟩ := ih i u hu hwaiting
      exact ⟨List.mem_append_left _ hmem, by omega⟩

/-- **After any turns, there is a slot for each access that is under way.** -/
theorem inFlight_le_slots (turns : List Turn) :
    (perform table request limits turns).inFlight ≤ limits.slots := by
  refine countP_le_of_window (perform table request limits turns).taken limits.slots ?_
  intro i task htask hfetching
  refine ⟨?_, (begun turns htask fun hwaiting => ?_).2⟩
  · refine Nat.le_of_not_lt fun hlt => ?_
    obtain ⟨o, ho⟩ := finished_of_lt_taken hlt
    cases htask.symm.trans ho
    cases hfetching
  · subst hwaiting
    cases hfetching

end Progress

/-! ## The progress at a time -/

variable (table request limits)

/-- The progress of a request at the time `now`, when all turns up to then are made. -/
def progressAt (cancel : Option Nat) (now : Nat) : Progress :=
  Progress.perform table request limits
    (((timedTurns table request limits cancel).takeWhile (·.1 ≤ now)).map Prod.snd)

/-- The task of an entry at the time `now`, when it starts and finishes by `s`. -/
def Task.At (s : Schedule.Slot) (now : Nat) : Task → Prop
  | waiting => now < s.start
  | fetching _ => s.start ≤ now ∧ now < s.finish
  | finished _ => s.finish ≤ now

variable {table request limits}

theorem mem_takeWhile_iff {l : List (Nat × Turn)} (hl : l.Pairwise Earlier) {now : Nat}
    {t : Nat × Turn} : t ∈ l.takeWhile (·.1 ≤ now) ↔ t ∈ l ∧ t.1 ≤ now := by
  induction l with
  | nil => simp
  | cons u r ih =>
    obtain ⟨hhead, hr⟩ := List.pairwise_cons.1 hl
    by_cases hu : u.1 ≤ now
    · rw [List.takeWhile_cons_of_pos (by simpa using hu), List.mem_cons, List.mem_cons, ih hr]
      constructor
      · rintro (rfl | ⟨ht, hle⟩)
        · exact ⟨Or.inl rfl, hu⟩
        · exact ⟨Or.inr ht, hle⟩
      · rintro ⟨rfl | ht, hle⟩
        · exact Or.inl rfl
        · exact Or.inr ⟨ht, hle⟩
    · rw [List.takeWhile_cons_of_neg (by simpa using hu)]
      refine iff_of_false List.not_mem_nil ?_
      rintro ⟨ht, hle⟩
      rcases List.mem_cons.1 ht with rfl | ht
      · exact hu hle
      · have := hhead t ht
        unfold Earlier at this
        omega

/-- The turns up to `now` are those whose times are not after it. -/
theorem mem_turnsUpTo {cancel : Option Nat} {now : Nat} {turn : Turn} :
    turn ∈ ((timedTurns table request limits cancel).takeWhile (·.1 ≤ now)).map Prod.snd ↔
      ∃ time ≤ now, (time, turn) ∈ timedTurns table request limits cancel := by
  rw [List.mem_map]
  constructor
  · rintro ⟨⟨time, turn⟩, ht, rfl⟩
    obtain ⟨hmem, hle⟩ := (mem_takeWhile_iff (pairwise_timedTurns _ _ _ _)).1 ht
    exact ⟨time, hle, hmem⟩
  · rintro ⟨time, hle, hmem⟩
    exact ⟨(time, turn), (mem_takeWhile_iff (pairwise_timedTurns _ _ _ _)).2 ⟨hmem, hle⟩, rfl⟩

section Entry

variable {i : Nat} {e : Entry} {s : Schedule.Slot} {name : VersionName} {handle : Handle}
  {cause : Cause} {time : Nat}

/-- An access lasts for its latency, or up to the limit when that is less. -/
inductive Limits.Lasts (limits : Limits) (latency : Nat) : Nat → Prop
  | inTime (h : ∀ limit, limits.timeout = some limit → latency ≤ limit) :
    Lasts limits latency latency
  | upTo {limit : Nat} (h : limits.timeout = some limit) (hlimit : limit < latency) :
    Lasts limits latency limit

theorem Limits.lasts_iff {latency length : Nat} :
    limits.Lasts latency length ↔ length = limits.duration latency := by
  unfold duration
  cases htimeout : limits.timeout with
  | none =>
    constructor
    · rintro (h | ⟨h, -⟩)
      · rfl
      · cases htimeout.symm.trans h
    · rintro rfl
      exact .inTime (by simp [htimeout])
  | some limit =>
    rw [Option.map_some, Option.getD_some]
    constructor
    · rintro (h | ⟨h, hlimit⟩)
      · exact (Nat.min_eq_left (h limit htimeout)).symm
      · cases htimeout.symm.trans h
        exact (Nat.min_eq_right (Nat.le_of_lt hlimit)).symm
    · rintro rfl
      rcases Nat.lt_or_ge limit latency with hlimit | hlimit
      · rw [Nat.min_eq_right (Nat.le_of_lt hlimit)]
        exact .upTo htimeout hlimit
      · rw [Nat.min_eq_left hlimit]
        exact .inTime (by simpa [htimeout] using hlimit)

theorem finish_of_unrouted (he : request.entries[i]? = some e)
    (hs : (slots table request limits none)[i]? = some s) (hroute : route table e = .error cause) :
    s.finish = s.start := by
  simp [finish_of_slots he hs, finishTime, hroute]

theorem finish_of_route (he : request.entries[i]? = some e)
    (hs : (slots table request limits none)[i]? = some s)
    (hroute : route table e = .ok (name, handle)) :
    s.finish = s.start + limits.duration (handle.latency name.text) := by
  simp [finish_of_slots he hs, finishTime, hroute]

theorem start_le_finish (he : request.entries[i]? = some e)
    (hs : (slots table request limits none)[i]? = some s) : s.start ≤ s.finish := by
  rw [finish_of_slots he hs]
  exact start_le_finishTime table limits none e s.start

/-- The turns of an entry come at its start, which has an odd rank, and at its finish. -/
theorem time_of_mem_timedTurns {turn : Turn} (he : request.entries[i]? = some e)
    (hs : (slots table request limits none)[i]? = some s)
    (h : (time, turn) ∈ timedTurns table request limits none) :
    (turn.rank = 2 * i + 1 → time = s.start) ∧ (turn.rank = 2 * i + 2 → time = s.finish) := by
  rcases mem_timedTurns.1 h with ⟨c, hc, -⟩ | ⟨j, d, r, hd, hr, hturn⟩
  · cases hc
  · rcases mem_entryTurns.1 hturn with hstart | ⟨name, handle, hroute, hlast⟩
    · cases hstart
      simp only [Turn.rank]
      refine ⟨fun hrank => ?_, fun hrank => by omega⟩
      obtain rfl : j = i := by omega
      cases hr.symm.trans hs
      rfl
    · cases hlast
      rw [rank_lastTurn]
      refine ⟨fun hrank => by omega, fun hrank => ?_⟩
      obtain rfl : j = i := by omega
      cases hr.symm.trans hs
      rw [finish_of_route hd hs hroute]

/-- The turns up to `now` do not come for an entry before its times. -/
theorem time_of_mem_turnsUpTo {turn : Turn} {now : Nat} (he : request.entries[i]? = some e)
    (hs : (slots table request limits none)[i]? = some s)
    (h : turn ∈ ((timedTurns table request limits none).takeWhile (·.1 ≤ now)).map Prod.snd) :
    (turn.rank = 2 * i + 1 → s.start ≤ now) ∧ (turn.rank = 2 * i + 2 → s.finish ≤ now) := by
  obtain ⟨time, hle, hmem⟩ := mem_turnsUpTo.1 h
  obtain ⟨hstart, hfinish⟩ := time_of_mem_timedTurns he hs hmem
  exact ⟨fun hrank => hstart hrank ▸ hle, fun hrank => hfinish hrank ▸ hle⟩

/-- **At any time, the task of an entry is what the times of the entry say.** -/
theorem task_at (he : request.entries[i]? = some e)
    (hs : (slots table request limits none)[i]? = some s) (now : Nat) :
    ∃ task, (progressAt table request limits none now).tasks[i]? = some task ∧ task.At s now := by
  have hkept := kept _ _ (List.takeWhile_append_dropWhile (p := (·.1 ≤ now))
    (l := timedTurns table request limits none)).symm
  have hsorted := pairwise_timedTurns table request limits none
  obtain ⟨task, htask⟩ :
      ∃ task, (progressAt table request limits none now).tasks[i]? = some task :=
    Progress.exists_task he
  have hstarted : task ≠ .waiting → s.start ≤ now := fun hbegun =>
    (time_of_mem_turnsUpTo he hs (Progress.begun _ htask hbegun).1).1 rfl
  refine ⟨task, htask, ?_⟩
  cases task with
  | waiting =>
    refine Nat.lt_of_not_le fun hle => ?_
    exact hkept.started i e s he hs
      ((mem_takeWhile_iff hsorted).2 ⟨start_mem_timedTurns he hs, hle⟩) htask
  | fetching name =>
    refine ⟨hstarted (by simp), Nat.lt_of_not_le fun hle => ?_⟩
    cases Progress.stands _ he htask with
    | fetching hroute =>
      rw [finish_of_route he hs hroute] at hle
      obtain ⟨o, ho⟩ := hkept.finished i e s _ _ he hs hroute
        ((mem_takeWhile_iff hsorted).2 ⟨last_mem_timedTurns he hs hroute, hle⟩)
      cases htask.symm.trans ho
  | finished o =>
    show s.finish ≤ now
    cases Progress.comes he htask with
    | unrouted hroute =>
      rw [finish_of_unrouted he hs hroute]
      exact hstarted (by simp)
    | cancelled _ hcancel =>
      obtain ⟨time, -, hmem⟩ := mem_turnsUpTo.1 hcancel
      obtain ⟨c, hc⟩ := cancel_mem_timedTurns.1 (List.mem_map_of_mem (f := Prod.snd) hmem)
      cases hc
    | answered _ hreply => exact (time_of_mem_turnsUpTo he hs hreply.mem).2 rfl
    | expired _ _ hexpire => exact (time_of_mem_turnsUpTo he hs hexpire).2 rfl

end Entry

/-! ## The end -/

theorem exists_entry_of_slot {i : Nat} {s : Schedule.Slot}
    (hs : (slots table request limits none)[i]? = some s) :
    ∃ e, request.entries[i]? = some e := by
  have hi := (List.getElem?_eq_some_iff.1 hs).1
  rw [slots, Schedule.length_slots, List.length_map] at hi
  exact ⟨_, List.getElem?_eq_getElem hi⟩

variable (table request limits)

/-- **A request is answered when the last of its entries has finished, and not before.** -/
theorem done_progressAt_iff (now : Nat) :
    (progressAt table request limits none now).Done ↔
      Schedule.elapsed (slots table request limits none) ≤ now := by
  rw [Schedule.elapsed_le_iff]
  refine Progress.done_iff.trans ⟨fun h s hmem => ?_, fun h i e he => ?_⟩
  · obtain ⟨i, hs⟩ := List.mem_iff_getElem?.1 hmem
    obtain ⟨e, he⟩ := exists_entry_of_slot hs
    obtain ⟨o, ho⟩ := h i e he
    obtain ⟨task, htask, hat⟩ := task_at he hs now
    cases ho.symm.trans htask
    exact hat
  · obtain ⟨s, hs⟩ := exists_slot table limits none he
    obtain ⟨task, htask, hat⟩ := task_at he hs now
    have hle := start_le_finish he hs
    have hend := h s (List.mem_of_getElem? hs)
    cases task with
    | finished o => exact ⟨o, htask⟩
    | waiting =>
      have : now < s.start := hat
      omega
    | fetching name =>
      have : s.start ≤ now ∧ now < s.finish := hat
      omega

/-- When the last entry has finished, all turns are made. -/
theorem progressAt_elapsed :
    progressAt table request limits none (Schedule.elapsed (slots table request limits none)) =
      clocked table request limits none := by
  have hall : ∀ t ∈ timedTurns table request limits none,
      t.1 ≤ Schedule.elapsed (slots table request limits none) := by
    intro t ht
    rcases mem_timedTurns.1 ht with ⟨c, hc, -⟩ | ⟨i, e, s, he, hs, hturn⟩
    · cases hc
    · have hfinish := Schedule.elapsed_le_iff.1 (Nat.le_refl _) s (List.mem_of_getElem? hs)
      rcases mem_entryTurns.1 hturn with rfl | ⟨name, handle, hroute, rfl⟩
      · exact Nat.le_trans (start_le_finish he hs) hfinish
      · rwa [finish_of_route he hs hroute] at hfinish
  rw [progressAt, clocked, List.takeWhile_eq_self_iff.2 (by simpa using hall)]

/-- Accesses of one length take as many times this length as there are groups of entries that have
slots at one time. -/
theorem elapsed_of_equal {length : Nat} (h : ∀ e ∈ request.entries, ∃ name handle,
      route table e = .ok (name, handle) ∧ limits.Lasts (handle.latency name.text) length) :
    Schedule.elapsed (slots table request limits none) =
      (request.entries.length + limits.slots - 1) / limits.slots * length := by
  have hjobs : ∀ job ∈ request.entries.map (finishTime table limits none),
      ∀ now, job now = now + length := by
    intro job hjob now
    obtain ⟨e, he, rfl⟩ := List.mem_map.1 hjob
    obtain ⟨name, handle, hroute, hlength⟩ := h e he
    simp only [finishTime, hroute, Limits.lasts_iff.1 hlength]
  rw [slots, Schedule.elapsed_of_constant (slots_pos limits) hjobs, List.length_map]

/-- **A run keeps its schedule.** An entry starts when all have finished that are as many places in
front of it as there are slots, or more; it finishes at once when it has no route, else when its
access ends, which is after its latency, or at the limit when that is shorter. At each time the
entries before their starts wait, those between their starts and finishes fetch, and the others have
finished. The request is answered at the latest finish time, with what has come by then. Whatever
the order of the turns, there is a slot for each access that is under way. Each entry is tried, and
accesses of one length take this length for each group of entries that fills the slots. -/
theorem runs_on_schedule (table : RoutingTable Handle) (request : Request) (limits : Limits) :
    let times := slots table request limits none
    let count := max 1 limits.maxConcurrent
    let made := run table request limits none
    (∀ i e, request.entries[i]? = some e → ∃ s, times[i]? = some s ∧
      s.start = Schedule.elapsed (times.take (i + 1 - count)) ∧
      (∀ cause, route table e = .error cause → s.finish = s.start) ∧
      (∀ name handle, route table e = .ok (name, handle) →
        ∃ length, limits.Lasts (handle.latency name.text) length ∧ s.finish = s.start + length) ∧
      ∀ now, ∃ task,
        (progressAt table request limits none now).tasks[i]? = some task ∧ task.At s now) ∧
    made.elapsed = Schedule.elapsed times ∧
    (∀ now, (progressAt table request limits none now).Done ↔ made.elapsed ≤ now) ∧
    made = report request (progressAt table request limits none made.elapsed) made.elapsed ∧
    made.accesses.Perm (request.entries.filterMap (access? table)) ∧
    (∀ turns, (Progress.perform table request limits turns).inFlight ≤ count) ∧
    ∀ length, (∀ e ∈ request.entries, ∃ name handle, route table e = .ok (name, handle) ∧
        limits.Lasts (handle.latency name.text) length) →
      made.elapsed = (request.entries.length + count - 1) / count * length := by
  intro times count made
  refine ⟨fun i e he => ?_, rfl, done_progressAt_iff table request limits, ?_, perm_accesses_run,
    Progress.inFlight_le_slots, fun length => elapsed_of_equal table request limits⟩
  · obtain ⟨s, hs⟩ := exists_slot table limits none he
    exact ⟨s, hs, Schedule.start_of_slots (slots_pos limits) hs,
      fun _ => finish_of_unrouted he hs,
      fun _ _ hroute => ⟨_, Limits.lasts_iff.2 rfl, finish_of_route he hs hroute⟩, task_at he hs⟩
  · have hclocked := progressAt_elapsed table request limits
    show report request _ _ = report request _ _
    rw [← hclocked]
    rfl

/-- With one slot and a limit that all accesses exceed, the entries take the limit one after the
other, but for one that fails without an access. With a longer limit, or none, they take their own
time. -/
theorem runs_on_schedule_one_slot :
    let handle := Source.handle 0 (.memory (.new "memory" 30))
    let table := RoutingTable.ofGeneral handle
    let entry := Entry.new "projects/p/secrets/s/versions/1"
    let request : Request := ⟨[entry "a", entry "b", entry "c"], 0, ⟨"", "", "", ""⟩, ""⟩
    let mixed : Request := ⟨[entry "a", entry "", entry "c"], 0, ⟨"", "", "", ""⟩, ""⟩
    let limits (timeout : Option Nat) : Limits := ⟨0, timeout⟩
    (run table request (limits (some 5)) none).elapsed = 15 ∧
      (run table request (limits (some 40)) none).elapsed = 90 ∧
      (run table request (limits none) none).elapsed = 90 ∧
      (∃ s, (slots table mixed (limits (some 5)) none)[1]? = some s ∧ s.start = 5 ∧ s.finish = 5) ∧
      (∃ s, (slots table mixed (limits (some 5)) none)[2]? = some s ∧
        s.start = 5 ∧ s.finish = 10) ∧
      ∃ s, (slots table mixed (limits (some 40)) none)[2]? = some s ∧
        s.start = 30 ∧ s.finish = 60 := by
  intro handle table entry request mixed limits
  have hparse : VersionName.parse "projects/p/secrets/s/versions/1" =
      .ok ⟨"p", none, "s", .number 1⟩ := by decide
  have hroute : ∀ file, file ≠ "" → ∃ name handle, route table (entry file) = .ok (name, handle) ∧
      handle.latency name.text = 30 := by
    intro file hfile
    have hserves : Serves table (entry file) handle := by
      refine ⟨?_, _, hparse, rfl⟩
      simpa [Entry.outputPath, entry, Entry.new] using hfile
    obtain ⟨name, hname, -⟩ := route_of_serves hserves
    have hlatency : handle.latency name.text = 30 := by
      show Duration.timer 30 = 30
      decide
    exact ⟨name, handle, hname, hlatency⟩
  have hshort : (limits (some 5)).Lasts 30 5 := .upTo rfl (by decide)
  have hlong : (limits (some 40)).Lasts 30 30 := .inTime (by simp [limits])
  have hfree : (limits none).Lasts 30 30 := .inTime (by simp [limits])
  have helapsed : ∀ {timeout : Option Nat} {length : Nat}, (limits timeout).Lasts 30 length →
      (run table request (limits timeout) none).elapsed = 3 * length := by
    intro timeout length hlength
    obtain ⟨-, -, -, -, -, -, helapsed⟩ := runs_on_schedule table request (limits timeout)
    have hgroups : (3 + max 1 0 - 1) / max 1 0 = 3 := by decide
    refine (helapsed length fun e he => ?_).trans (congrArg (· * length) hgroups)
    obtain ⟨file, hfile, rfl⟩ : ∃ file, file ≠ "" ∧ e = entry file := by
      simp only [request, List.mem_cons, List.not_mem_nil, or_false] at he
      rcases he with rfl | rfl | rfl
      · exact ⟨"a", by decide, rfl⟩
      · exact ⟨"b", by decide, rfl⟩
      · exact ⟨"c", by decide, rfl⟩
    obtain ⟨name, handle, hname, hlatency⟩ := hroute file hfile
    exact ⟨name, handle, hname, hlatency ▸ hlength⟩
  have hthird : ∀ {timeout : Option Nat} {length : Nat}, (limits timeout).Lasts 30 length →
      ∃ s, (slots table mixed (limits timeout) none)[2]? = some s ∧
        s.start = Schedule.elapsed ((slots table mixed (limits timeout) none).take 2) ∧
        s.finish = s.start + length := by
    intro timeout length hlength
    obtain ⟨s, hs, hstart, -, hrouted, -⟩ :=
      (runs_on_schedule table mixed (limits timeout)).1 2 _ rfl
    obtain ⟨name, handle, hc, hlatency⟩ := hroute "c" (by decide)
    obtain ⟨other, hother, hfinish⟩ := hrouted name handle hc
    rw [hlatency] at hother
    rw [Limits.lasts_iff.1 hother, ← Limits.lasts_iff.1 hlength] at hfinish
    exact ⟨s, hs, hstart, hfinish⟩
  refine ⟨helapsed hshort, helapsed hlong, helapsed hfree, ?_, ?_, ?_⟩
  · obtain ⟨s, hs, hstart, hunrouted, -⟩ :=
      (runs_on_schedule table mixed (limits (some 5))).1 1 _ rfl
    have hfive : s.start = 5 := hstart.trans (by decide +kernel)
    exact ⟨s, hs, hfive, (hunrouted .noDestination rfl).trans hfive⟩
  · obtain ⟨s, hs, hstart, hfinish⟩ := hthird hshort
    have hfive : s.start = 5 := hstart.trans (by decide +kernel)
    exact ⟨s, hs, hfive, by rw [hfinish, hfive]⟩
  · obtain ⟨s, hs, hstart, hfinish⟩ := hthird hlong
    have hthirty : s.start = 30 := hstart.trans (by decide +kernel)
    exact ⟨s, hs, hthirty, by rw [hfinish, hthirty]⟩

end SecretMount.Mount
