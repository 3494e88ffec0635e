import SecretMount.Proofs.Clock
import SecretMount.Proofs.Collection

/-!
# Cancelled requests

A request can be cancelled between any two turns. What has finished by then stays, and nothing is
accessed any more.

* `Mount.unfetched` : what an entry comes to that is not fetched to the end;
* `Mount.Halted` : the invariant of the turns behind a cancellation (`Mount.Halted.change`,
  `Mount.halted_perform`);
* `Mount.done_of_starts` : a cancelled request waits for no backend;
* `Mount.cancel_safe` : what becomes of a request that is cancelled.
-/

namespace SecretMount.Mount

open Backend

variable (table : RoutingTable Handle) (request : Request) (limits : Limits)

/-- What an entry comes to that has not finished when the request is cancelled. -/
def unfetched (e : Entry) : Cause :=
  match route table e with
  | .error cause => cause
  | .ok _ => .cancelled

/-- An entry that is not fetched fails as it would without a backend, or because of the
cancellation. -/
theorem unfetched_spec (e : Entry) :
    Misrouted table e (unfetched table e) ∨
      unfetched table e = .cancelled ∧ ∀ cause, ¬ Misrouted table e cause := by
  unfold unfetched
  cases hroute : route table e with
  | error cause => exact Or.inl (misrouted_iff.2 hroute)
  | ok route =>
    refine Or.inr ⟨rfl, fun cause hcause => ?_⟩
    rw [misrouted_iff, hroute] at hcause
    cases hcause

/-- The progress `q` comes behind the progress `p`, when the request has been cancelled. -/
structure Halted (p q : Progress) : Prop where
  cancelled : q.cancelled = true
  idle : ∀ (i : Nat) (name : VersionName), q.tasks[i]? ≠ some (.fetching name)
  accesses : q.accesses = p.accesses
  waited : ∀ (i : Nat) (e : Entry), request.entries[i]? = some e → p.tasks[i]? = some .waiting →
    q.tasks[i]? = some .waiting ∨ q.tasks[i]? = some (.finished (.error (unfetched table e)))

variable {table request limits}

/-- A cancellation ends all accesses and starts none. -/
theorem halted_cancel (p : Progress) :
    Halted table request (Progress.step table request limits p .cancel)
      (Progress.step table request limits p .cancel) where
  cancelled := rfl
  idle i name h := by
    simp only [Progress.step, List.getElem?_map, Option.map_eq_some_iff] at h
    obtain ⟨t, -, ht⟩ := h
    cases t <;> cases ht
  accesses := rfl
  waited _ _ _ h := Or.inl h

/-- A task that finishes as an entry that is not fetched. -/
theorem Halted.setTask {p q : Progress} (h : Halted table request p q) {index : Nat} {e : Entry}
    (hentry : request.entries[index]? = some e) (htask : q.tasks[index]? = some .waiting) :
    Halted table request p (q.setTask index (.finished (.error (unfetched table e)))) where
  cancelled := h.cancelled
  idle i name hi := by
    rcases getElem?_set_cases hi with ⟨-, ht⟩ | ⟨-, ht⟩
    · cases ht
    · exact h.idle i name ht
  accesses := h.accesses
  waited i d hd hi := by
    by_cases hindex : index = i
    · subst hindex
      cases hentry.symm.trans hd
      exact Or.inr (List.getElem?_set_self (List.getElem?_eq_some_iff.1 htask).1)
    · simp only [Progress.setTask, List.getElem?_set_ne hindex]
      exact h.waited i d hd hi

/-- No turn behind a cancellation does more than finish an entry that was waiting. -/
theorem Halted.change {p q r : Progress} {t : Turn} (h : Halted table request p q)
    (ht : Progress.Change table request limits q t r) : Halted table request p r := by
  cases ht with
  | idle => exact h
  | unrouted hentry htask hroute =>
    have := h.setTask hentry htask
    simpa only [unfetched, hroute] using this
  | refused hentry htask hroute =>
    have := h.setTask hentry htask
    simpa only [unfetched, hroute] using this
  | accessed _ _ _ hcancelled => exact absurd h.cancelled (by simp [hcancelled])
  | answered _ htask | expired htask => exact absurd htask (h.idle _ _)
  | cancelled =>
    refine ⟨rfl, fun i name hi => ?_, h.accesses, fun i e he hi => ?_⟩
    · simp only [List.getElem?_map, Option.map_eq_some_iff] at hi
      obtain ⟨u, -, hu⟩ := hi
      cases u <;> cases hu
    · simp only [List.getElem?_map]
      rcases h.waited i e he hi with hw | hf
      · exact Or.inl (by rw [hw]; rfl)
      · exact Or.inr (by rw [hf]; rfl)

theorem halted_foldl {p q : Progress} (h : Halted table request p q) (turns : List Turn) :
    Halted table request p (turns.foldl (Progress.step table request limits) q) := by
  induction turns generalizing q with
  | nil => exact h
  | cons t r ih => exact ih (h.change (Progress.step_change table request limits q t))

/-- A cancelled request is answered as soon as its entries have started: it waits for no backend. -/
theorem done_of_starts {turns : List Turn} (hcancel : .cancel ∈ turns) :
    (Progress.perform table request limits
      (turns ++ (List.range request.entries.length).map .start)).Done := by
  have hfirst : ∀ k ≤ request.entries.length, ∀ j < k, ∃ o,
      (Progress.perform table request limits (turns ++ (List.range k).map .start)).tasks[j]? =
        some (.finished o) := by
    intro k
    induction k with
    | zero => exact fun _ j hj => absurd hj (Nat.not_lt_zero j)
    | succ k ih =>
      intro hk j hj
      have hbefore := ih (by omega)
      rw [List.range_succ, List.map_append, List.map_singleton, ← List.append_assoc]
      rcases Nat.lt_succ_iff_lt_or_eq.1 hj with hj | rfl
      · obtain ⟨o, ho⟩ := hbefore j hj
        rw [Progress.perform_concat]
        exact ⟨o, (Progress.step_change table request limits _ _).finished ho⟩
      · obtain ⟨e, he⟩ : ∃ e, request.entries[j]? = some e := ⟨_, List.getElem?_eq_getElem hk⟩
        refine Progress.finished_of_over he ?_ fun name handle _ => Or.inr (by simp [hcancel])
        rw [Progress.perform_concat]
        refine Progress.not_waiting_step_start he (Progress.hasSlot_of_finished fun i hi => ?_)
        have hpos := slots_pos limits
        exact hbefore i (by omega)
  exact Progress.done_iff.2 fun i e he =>
    hfirst _ (Nat.le_refl _) i (List.getElem?_eq_some_iff.1 he).1

variable (table request limits) (before after : List Turn)

theorem perform_cancel :
    Progress.perform table request limits (before ++ .cancel :: after) =
      after.foldl (Progress.step table request limits)
        (Progress.step table request limits (Progress.perform table request limits before)
          .cancel) :=
  Progress.perform_append table request limits before (.cancel :: after)

theorem halted_perform :
    Halted table request
      (Progress.step table request limits (Progress.perform table request limits before) .cancel)
      (Progress.perform table request limits (before ++ .cancel :: after)) := by
  rw [perform_cancel]
  exact halted_foldl (halted_cancel _) after

variable {table request limits} {before after}

/-- An outcome that was reached before the cancellation stays. -/
theorem finished_cancel {i : Nat} {o : Outcome}
    (h : (Progress.perform table request limits before).tasks[i]? = some (.finished o)) :
    (Progress.perform table request limits (before ++ .cancel :: after)).tasks[i]? =
      some (.finished o) := by
  rw [perform_cancel]
  exact Progress.finished_foldl after ((Progress.step_change table request limits _ _).finished h)

/-- An entry that had not finished when the request was cancelled comes to nothing. -/
theorem finished_unfetched
    (hdone : (Progress.perform table request limits (before ++ .cancel :: after)).Done) {i : Nat}
    {e : Entry} {t : Task} (he : request.entries[i]? = some e)
    (ht : (Progress.perform table request limits before).tasks[i]? = some t)
    (hunfinished : t.isFinished = false) :
    (Progress.perform table request limits (before ++ .cancel :: after)).tasks[i]? =
      some (.finished (.error (unfetched table e))) := by
  cases t with
  | finished => cases hunfinished
  | waiting =>
    have hwaiting : (Progress.step table request limits
        (Progress.perform table request limits before) .cancel).tasks[i]? = some .waiting := by
      simp [Progress.step, ht, Task.cancel]
    obtain ⟨o, ho⟩ := Progress.done_iff.1 hdone i e he
    rcases (halted_perform table request limits before after).waited i e he hwaiting with hw | hf
    · cases ho.symm.trans hw
    · exact hf
  | fetching name =>
    rw [perform_cancel]
    refine Progress.finished_foldl after ?_
    cases Progress.stands before he ht with
    | fetching hroute => simp [Progress.step, ht, Task.cancel, unfetched, hroute]

/-- A request that is cancelled before it is done fails. -/
theorem result_cancel
    (hdone : (Progress.perform table request limits (before ++ .cancel :: after)).Done)
    (hopen : ¬ (Progress.perform table request limits before).Done) (elapsed : Nat) :
    ∃ failure, (report request
      (Progress.perform table request limits (before ++ .cancel :: after)) elapsed).result =
        .error failure := by
  obtain ⟨t, ht, hunfinished⟩ : ∃ t ∈ (Progress.perform table request limits before).tasks,
      t.isFinished = false := by
    simpa [Progress.Done] using hopen
  obtain ⟨i, hi⟩ := List.mem_iff_getElem?.1 ht
  obtain ⟨e, he⟩ := Progress.exists_entry hi
  have hfinished := finished_unfetched hdone he hi hunfinished
  refine ⟨_, result_eq_error_iff.2 ⟨?_, rfl⟩⟩
  refine List.ne_nil_of_mem (a := ⟨i, e.resourceName, unfetched table e⟩) ?_
  refine mem_failures.2 ⟨e, he, ?_, rfl⟩
  rw [Progress.getElem?_outcomes, hfinished]
  rfl

/-- **A cancellation is safe at every point.** Let `before` be the turns up to it and `after` those
behind it. What had finished keeps its outcome, no access starts any more, and once all entries have
started the request is answered. Every entry that had not finished fails, as it would without a
backend if it has no route, and else because of the cancellation; so if there is one, the request
fails. -/
theorem cancel_safe (table : RoutingTable Handle) (request : Request) (limits : Limits)
    (before after : List Turn) :
    let reached := Progress.perform table request limits before
    let ended := Progress.perform table request limits (before ++ .cancel :: after)
    (∀ (i : Nat) (o : Outcome), reached.tasks[i]? = some (.finished o) →
      ended.tasks[i]? = some (.finished o)) ∧
    ended.accesses = reached.accesses ∧
    ended.outcomes.length = request.entries.length ∧
    (Progress.perform table request limits (before ++ .cancel :: after ++
      (List.range request.entries.length).map .start)).Done ∧
    (ended.Done → ∀ (i : Nat) (e : Entry) (t : Task), request.entries[i]? = some e →
      reached.tasks[i]? = some t → t.isFinished = false →
      ∃ cause, ended.tasks[i]? = some (.finished (.error cause)) ∧
        (Misrouted table e cause ∨ cause = .cancelled ∧ ∀ c, ¬ Misrouted table e c)) ∧
    (ended.Done → ¬ reached.Done → ∀ elapsed, ∃ failure,
      (report request ended elapsed).result = .error failure) := by
  intro reached ended
  refine ⟨fun i o ho => finished_cancel ho, ?_, ?_, done_of_starts (by simp), ?_, ?_⟩
  · exact (halted_perform table request limits before after).accesses
  · rw [Progress.length_outcomes, Progress.length_tasks]
  · intro hdone i e t he ht hunfinished
    exact ⟨unfetched table e, finished_unfetched hdone he ht hunfinished, unfetched_spec table e⟩
  · intro hdone hopen elapsed
    exact result_cancel hdone hopen elapsed

/-- The first entry has finished and the second is fetched when the request is cancelled. -/
theorem cancel_safe_in_flight :
    let name := "projects/p/secrets/s/versions/1"
    let table : RoutingTable Handle :=
      .ofGeneral ⟨0, globalEndpoint, fun _ => 0, fun name => ⟨.ok ⟨name, []⟩, []⟩⟩
    let request : Request := ⟨[.new name "a", .new name "b"], 0, ⟨"", "", "", ""⟩, ""⟩
    let before : List Turn := [.start 0, .start 1, .answer 0 ⟨.ok ⟨name, []⟩, []⟩]
    let ended := Progress.perform table request .standard (before ++ [.cancel])
    ended.Done ∧ ended.accesses = [(0, name), (0, name)] ∧
      ∃ failure, (report request ended 0).result = .error failure := by
  intro name table request before ended
  have hdone : ended.Done := by decide
  have hopen : ¬ (Progress.perform table request .standard before).Done := by decide
  have hreached : (Progress.perform table request .standard before).accesses =
      [(0, name), (0, name)] := by decide
  obtain ⟨-, haccesses, -, -, -, hfails⟩ := cancel_safe table request .standard before []
  exact ⟨hdone, haccesses.trans hreached, hfails hdone hopen 0⟩

end SecretMount.Mount
