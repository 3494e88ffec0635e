import Mathlib.Data.List.Induction
import SecretMount.Mount.Run

/-!
# What a turn changes

* `Progress.Change` : all that a turn can do, one case for each way; `Progress.step_change` is the
  only place where a step is opened;
* `Progress.perform_induction` : what holds at the start and is kept by each turn holds after any
  turns;
* `Progress.length_tasks`, `Progress.cancelled_iff` : there is one task for each entry, and the
  request is cancelled when a turn says so;
* `Progress.Change.finished`, `Progress.Change.started`, `Progress.Change.begun` : tasks never go
  back, and only their starts move them on from where they wait;
* `Progress.Done` : all entries have finished (`Progress.done_iff`).
-/

namespace SecretMount.Mount

open Backend

theorem getElem?_set_cases {α : Type} {l : List α} {i j : Nat} {x y : α}
    (h : (l.set i x)[j]? = some y) : i = j ∧ y = x ∨ i ≠ j ∧ l[j]? = some y := by
  rw [List.getElem?_set] at h
  split at h
  · next hij =>
    split at h
    · exact Or.inl ⟨hij, (Option.some.inj h).symm⟩
    · cases h
  · next hij => exact Or.inr ⟨hij, h⟩

namespace Progress

variable (table : RoutingTable Handle) (request : Request) (limits : Limits)

/-! ## One turn -/

/-- What a turn can do. -/
inductive Change (p : Progress) : Turn → Progress → Prop
  /-- The turn is not possible. -/
  | idle {turn : Turn} (hturn : turn ≠ .cancel) : Change p turn p
  | unrouted {index : Nat} {e : Entry} {cause : Cause} (hentry : request.entries[index]? = some e)
      (htask : p.tasks[index]? = some .waiting) (hroute : route table e = .error cause)
      (hslot : p.hasSlot limits index = true) :
      Change p (.start index) (p.setTask index (.finished (.error cause)))
  | refused {index : Nat} {e : Entry} {name : VersionName} {handle : Handle}
      (hentry : request.entries[index]? = some e) (htask : p.tasks[index]? = some .waiting)
      (hroute : route table e = .ok (name, handle)) (hcancelled : p.cancelled = true)
      (hslot : p.hasSlot limits index = true) :
      Change p (.start index) (p.setTask index (.finished (.error .cancelled)))
  | accessed {index : Nat} {e : Entry} {name : VersionName} {handle : Handle}
      (hentry : request.entries[index]? = some e) (htask : p.tasks[index]? = some .waiting)
      (hroute : route table e = .ok (name, handle)) (hcancelled : p.cancelled = false)
      (hslot : p.hasSlot limits index = true) :
      Change p (.start index)
        { p.setTask index (.fetching name) with
          accesses := p.accesses ++ [(handle.id, name.text)]
          events := p.events ++ [Fetch.opening name handle.endpoint] }
  | answered {index : Nat} {e : Entry} {name : VersionName} {reply : Reply}
      (hentry : request.entries[index]? = some e)
      (htask : p.tasks[index]? = some (.fetching name)) :
      Change p (.answer index reply) (answer request p index e name reply)
  | expired {index : Nat} {name : VersionName} {limit : Nat}
      (htask : p.tasks[index]? = some (.fetching name)) (hlimit : limits.timeout = some limit) :
      Change p (.expire index) (p.setTask index (.finished (.error (.timeout limit))))
  | cancelled :
      Change p .cancel { p with tasks := p.tasks.map Task.cancel, cancelled := true }

theorem step_change (p : Progress) (turn : Turn) :
    Change table request limits p turn (step table request limits p turn) := by
  cases turn with
  | start index =>
    simp only [step]
    split
    · next e hentry htask =>
      split
      · next hslot =>
        unfold start
        split
        · next cause hroute => exact .unrouted hentry htask hroute hslot
        · next name handle hroute =>
          split
          · next hcancelled => exact .refused hentry htask hroute hcancelled hslot
          · next hcancelled =>
            exact .accessed hentry htask hroute (Bool.not_eq_true _ ▸ hcancelled) hslot
      · exact .idle (by simp)
    · exact .idle (by simp)
  | answer index reply =>
    simp only [step]
    split
    · next e name hentry htask => exact .answered hentry htask
    · exact .idle (by simp)
  | expire index =>
    simp only [step]
    split
    · next limit name hlimit htask => exact .expired htask hlimit
    · exact .idle (by simp)
  | cancel => exact .cancelled

/-! ## Many turns -/

theorem perform_append (before after : List Turn) :
    perform table request limits (before ++ after) =
      after.foldl (step table request limits) (perform table request limits before) :=
  List.foldl_append

theorem perform_concat (turns : List Turn) (turn : Turn) :
    perform table request limits (turns ++ [turn]) =
      step table request limits (perform table request limits turns) turn :=
  perform_append table request limits turns [turn]

/-- What holds at the start and is kept by each turn holds after any turns. -/
theorem perform_induction {P : List Turn → Progress → Prop} (initial : P [] (initial request))
    (turn : ∀ turns t q, P turns (perform table request limits turns) →
      Change table request limits (perform table request limits turns) t q → P (turns ++ [t]) q)
    (turns : List Turn) : P turns (perform table request limits turns) := by
  induction turns using List.reverseRecOn with
  | nil => exact initial
  | append_singleton turns t ih =>
    rw [perform_concat]
    exact turn turns t _ ih (step_change table request limits _ t)

variable {table request limits}

theorem Change.length_tasks {p q : Progress} {t : Turn} (h : Change table request limits p t q) :
    q.tasks.length = p.tasks.length := by
  cases h <;> simp [setTask, answer]

theorem Change.cancelled_iff {p q : Progress} {t : Turn} (h : Change table request limits p t q) :
    q.cancelled = true ↔ p.cancelled = true ∨ t = .cancel := by
  cases h <;> simp_all [setTask, answer]

/-- A task that has finished does not change. -/
theorem Change.finished {p q : Progress} {t : Turn} (h : Change table request limits p t q)
    {i : Nat} {o : Outcome} (hi : p.tasks[i]? = some (.finished o)) :
    q.tasks[i]? = some (.finished o) := by
  have hset : ∀ {index : Nat} {u : Task} (v : Task), p.tasks[index]? = some u →
      u.isFinished = false → (p.tasks.set index v)[i]? = some (.finished o) := by
    intro index u v hu hunfinished
    have hne : index ≠ i := by
      rintro rfl
      rw [hi] at hu
      cases hu
      cases hunfinished
    rw [List.getElem?_set_ne hne, hi]
  cases h with
  | idle => exact hi
  | unrouted _ htask | refused _ htask | accessed _ htask | answered _ htask | expired htask =>
    exact hset _ htask rfl
  | cancelled => simp [hi, Task.cancel]

/-- A task that has started does not wait again. -/
theorem Change.started {p q : Progress} {t : Turn} (h : Change table request limits p t q) {i : Nat}
    (hi : q.tasks[i]? = some .waiting) : p.tasks[i]? = some .waiting := by
  cases h with
  | idle => exact hi
  | unrouted | refused | accessed | answered | expired =>
    rcases getElem?_set_cases hi with ⟨_, ht⟩ | ⟨_, ht⟩
    · cases ht
    · exact ht
  | cancelled =>
    simp only [List.getElem?_map, Option.map_eq_some_iff] at hi
    obtain ⟨u, hu, hwaiting⟩ := hi
    cases u with
    | waiting => exact hu
    | fetching | finished => cases hwaiting

/-- A task that does not wait any more was started, and it had a slot. -/
theorem Change.begun {p q : Progress} {t : Turn} (h : Change table request limits p t q) {i : Nat}
    {task : Task} (hi : p.tasks[i]? = some .waiting) (hq : q.tasks[i]? = some task)
    (hbegun : task ≠ .waiting) : t = .start i ∧ p.hasSlot limits i = true := by
  cases h with
  | idle =>
    cases hi.symm.trans hq
    exact absurd rfl hbegun
  | unrouted _ _ _ hslot | refused _ _ _ _ hslot | accessed _ _ _ _ hslot =>
    rcases getElem?_set_cases hq with ⟨rfl, _⟩ | ⟨_, hq⟩
    · exact ⟨rfl, hslot⟩
    · cases hi.symm.trans hq
      exact absurd rfl hbegun
  | answered _ htask | expired htask =>
    rcases getElem?_set_cases hq with ⟨rfl, _⟩ | ⟨_, hq⟩
    · cases hi.symm.trans htask
    · cases hi.symm.trans hq
      exact absurd rfl hbegun
  | cancelled =>
    rw [List.getElem?_map, hi] at hq
    cases hq
    exact absurd rfl hbegun

theorem finished_foldl {p : Progress} {i : Nat} {o : Outcome} (turns : List Turn)
    (h : p.tasks[i]? = some (.finished o)) :
    (turns.foldl (step table request limits) p).tasks[i]? = some (.finished o) := by
  induction turns generalizing p with
  | nil => exact h
  | cons t r ih => exact ih ((step_change table request limits p t).finished h)

variable (table request limits)

@[simp] theorem length_tasks (turns : List Turn) :
    (perform table request limits turns).tasks.length = request.entries.length := by
  refine perform_induction table request limits (P := fun _ p => p.tasks.length = _) ?_ ?_ turns
  · simp [initial]
  · intro turns t q ih h
    rw [h.length_tasks, ih]

theorem cancelled_iff (turns : List Turn) :
    (perform table request limits turns).cancelled = true ↔ Turn.cancel ∈ turns := by
  refine perform_induction table request limits (P := fun l p => p.cancelled = true ↔ _ ∈ l) ?_ ?_
    turns
  · simp [initial]
  · intro turns t q ih h
    rw [h.cancelled_iff, ih]
    simp [eq_comm]

/-! ## Ends -/

/-- All entries have finished, so that the request is answered. -/
def Done (p : Progress) : Prop := ∀ t ∈ p.tasks, t.isFinished = true

instance (p : Progress) : Decidable p.Done := inferInstanceAs (Decidable (∀ t ∈ p.tasks, _))

variable {table request limits}

theorem exists_entry {turns : List Turn} {i : Nat} {t : Task}
    (h : (perform table request limits turns).tasks[i]? = some t) :
    ∃ e, request.entries[i]? = some e := by
  have hi := (List.getElem?_eq_some_iff.1 h).1
  rw [length_tasks] at hi
  exact ⟨_, List.getElem?_eq_getElem hi⟩

theorem exists_task {turns : List Turn} {i : Nat} {e : Entry} (h : request.entries[i]? = some e) :
    ∃ t, (perform table request limits turns).tasks[i]? = some t := by
  have hi := (List.getElem?_eq_some_iff.1 h).1
  rw [← length_tasks table request limits turns] at hi
  exact ⟨_, List.getElem?_eq_getElem hi⟩

theorem Done.finished {p : Progress} (h : p.Done) {i : Nat} {t : Task} (hi : p.tasks[i]? = some t) :
    ∃ o, t = .finished o := by
  cases t with
  | finished o => exact ⟨o, rfl⟩
  | waiting | fetching => cases h _ (List.mem_of_getElem? hi)

theorem getElem?_outcomes (p : Progress) (i : Nat) :
    p.outcomes[i]? = p.tasks[i]?.map Task.outcome :=
  List.getElem?_map

theorem length_outcomes (p : Progress) : p.outcomes.length = p.tasks.length := by simp [outcomes]

/-- A request is done when each entry has its outcome. -/
theorem done_iff {turns : List Turn} :
    (perform table request limits turns).Done ↔
      ∀ (i : Nat) (e : Entry), request.entries[i]? = some e →
        ∃ o, (perform table request limits turns).tasks[i]? = some (.finished o) := by
  constructor
  · intro h i e he
    obtain ⟨t, ht⟩ : ∃ t, (perform table request limits turns).tasks[i]? = some t := exists_task he
    obtain ⟨o, rfl⟩ := h.finished ht
    exact ⟨o, ht⟩
  · intro h t hmem
    obtain ⟨i, ht⟩ := List.mem_iff_getElem?.1 hmem
    obtain ⟨e, he⟩ := exists_entry ht
    obtain ⟨o, ho⟩ := h i e he
    cases ht.symm.trans ho
    rfl

end Progress

end SecretMount.Mount
