import SecretMount.Proofs.Turns

/-!
# Where outcomes come from

The invariant of runs. Whatever the order of the turns, the task of an entry stands as the turns
that concern this entry put it.

* `Progress.Answered` : the access for an entry was under way when a reply to it came;
* `Progress.Comes` : the ways in which an entry comes to its outcome, one case for each;
* `Progress.Stands` : what is known of a task, finished or not;
* `Progress.stands` : all tasks stand so, after any turns.
-/

namespace SecretMount.Mount.Progress

open Backend

variable (table : RoutingTable Handle) (request : Request) (limits : Limits)

/-- `reply` came to the access for the entry at `index`, which had not ended. -/
def Answered (turns : List Turn) (index : Nat) (reply : Reply) : Prop :=
  ∃ before after name, turns = before ++ .answer index reply :: after ∧
    (perform table request limits before).tasks[index]? = some (.fetching name)

/-- The ways in which the entry `e` at `index` comes to its outcome. -/
inductive Comes (turns : List Turn) (index : Nat) (e : Entry) : Outcome → Prop
  | unrouted {cause : Cause} (hroute : route table e = .error cause) :
      Comes turns index e (.error cause)
  | cancelled {name : VersionName} {handle : Handle} (hroute : route table e = .ok (name, handle))
      (hcancel : .cancel ∈ turns) : Comes turns index e (.error .cancelled)
  | answered {name : VersionName} {handle : Handle} {reply : Reply}
      (hroute : route table e = .ok (name, handle))
      (hreply : Answered table request limits turns index reply) :
      Comes turns index e (resolve e request.permissions reply.answer)
  | expired {name : VersionName} {handle : Handle} {limit : Nat}
      (hroute : route table e = .ok (name, handle)) (hlimit : limits.timeout = some limit)
      (hexpire : .expire index ∈ turns) : Comes turns index e (.error (.timeout limit))

/-- What is known of the task of the entry `e` at `index`. -/
inductive Stands (turns : List Turn) (index : Nat) (e : Entry) : Task → Prop
  | waiting : Stands turns index e .waiting
  | fetching {name : VersionName} {handle : Handle} (hroute : route table e = .ok (name, handle))
      (hcancel : .cancel ∉ turns) : Stands turns index e (.fetching name)
  | finished {o : Outcome} (hcomes : Comes table request limits turns index e o) :
      Stands turns index e (.finished o)

variable {table request limits}

theorem Answered.concat {turns : List Turn} {index : Nat} {reply : Reply}
    (h : Answered table request limits turns index reply) (t : Turn) :
    Answered table request limits (turns ++ [t]) index reply := by
  obtain ⟨before, after, name, rfl, htask⟩ := h
  exact ⟨before, after ++ [t], name, by simp, htask⟩

theorem Answered.mem {turns : List Turn} {index : Nat} {reply : Reply}
    (h : Answered table request limits turns index reply) : .answer index reply ∈ turns := by
  obtain ⟨before, after, name, rfl, -⟩ := h
  simp

theorem Comes.concat {turns : List Turn} {index : Nat} {e : Entry} {o : Outcome}
    (h : Comes table request limits turns index e o) (t : Turn) :
    Comes table request limits (turns ++ [t]) index e o := by
  cases h with
  | unrouted hroute => exact .unrouted hroute
  | cancelled hroute hcancel => exact .cancelled hroute (List.mem_append_left _ hcancel)
  | answered hroute hreply => exact .answered hroute (hreply.concat t)
  | expired hroute hlimit hexpire => exact .expired hroute hlimit (List.mem_append_left _ hexpire)

theorem Stands.concat {turns : List Turn} {index : Nat} {e : Entry} {task : Task}
    (h : Stands table request limits turns index e task) {t : Turn} (ht : t ≠ .cancel) :
    Stands table request limits (turns ++ [t]) index e task := by
  cases h with
  | waiting => exact .waiting
  | fetching hroute hcancel => exact .fetching hroute (by simp [hcancel, Ne.symm ht])
  | finished hcomes => exact .finished (hcomes.concat t)

/-- One turn keeps the invariant. -/
theorem Stands.change {turns : List Turn} {t : Turn} {q : Progress}
    (ih : ∀ i e task, request.entries[i]? = some e →
      (perform table request limits turns).tasks[i]? = some task →
      Stands table request limits turns i e task)
    (h : Change table request limits (perform table request limits turns) t q) {i : Nat} {e : Entry}
    {task : Task} (he : request.entries[i]? = some e) (hq : q.tasks[i]? = some task) :
    Stands table request limits (turns ++ [t]) i e task := by
  cases h with
  | idle hturn => exact (ih i e task he hq).concat hturn
  | unrouted hentry htask hroute =>
    rcases getElem?_set_cases hq with ⟨rfl, rfl⟩ | ⟨_, hq⟩
    · cases hentry.symm.trans he
      exact .finished (.unrouted hroute)
    · exact (ih i e task he hq).concat (by simp)
  | refused hentry htask hroute hcancelled =>
    rcases getElem?_set_cases hq with ⟨rfl, rfl⟩ | ⟨_, hq⟩
    · cases hentry.symm.trans he
      have hmem := (cancelled_iff table request limits turns).1 hcancelled
      exact .finished (.cancelled hroute (List.mem_append_left _ hmem))
    · exact (ih i e task he hq).concat (by simp)
  | accessed hentry htask hroute hcancelled =>
    rcases getElem?_set_cases hq with ⟨rfl, rfl⟩ | ⟨_, hq⟩
    · cases hentry.symm.trans he
      have hmem := mt (cancelled_iff table request limits turns).2 (by simp [hcancelled])
      exact .fetching hroute (by simp [hmem])
    · exact (ih i e task he hq).concat (by simp)
  | answered hentry htask =>
    rcases getElem?_set_cases hq with ⟨rfl, rfl⟩ | ⟨_, hq⟩
    · cases hentry.symm.trans he
      cases ih _ e _ he htask with
      | fetching hroute hcancel => exact .finished (.answered hroute ⟨turns, [], _, rfl, htask⟩)
    · exact (ih i e task he hq).concat (by simp)
  | expired htask hlimit =>
    rcases getElem?_set_cases hq with ⟨rfl, rfl⟩ | ⟨_, hq⟩
    · cases ih _ e _ he htask with
      | fetching hroute hcancel => exact .finished (.expired hroute hlimit (by simp))
    · exact (ih i e task he hq).concat (by simp)
  | cancelled =>
    simp only [List.getElem?_map, Option.map_eq_some_iff] at hq
    obtain ⟨u, hu, rfl⟩ := hq
    cases ih i e u he hu with
    | waiting => exact .waiting
    | fetching hroute hcancel => exact .finished (.cancelled hroute (by simp))
    | finished hcomes => exact .finished (hcomes.concat .cancel)

/-- **After any turns, every task stands as the turns of its entry put it.** -/
theorem stands (turns : List Turn) {i : Nat} {e : Entry} {task : Task}
    (he : request.entries[i]? = some e)
    (ht : (perform table request limits turns).tasks[i]? = some task) :
    Stands table request limits turns i e task := by
  refine perform_induction table request limits (P := fun l p => ∀ i e task,
    request.entries[i]? = some e → p.tasks[i]? = some task →
      Stands table request limits l i e task) ?_ ?_ turns i e task he ht
  · intro i e task he ht
    simp only [initial, List.getElem?_map, Option.map_eq_some_iff] at ht
    obtain ⟨_, _, rfl⟩ := ht
    exact .waiting
  · intro turns t q ih h i e task he hq
    exact Stands.change ih h he hq

theorem comes {turns : List Turn} {i : Nat} {e : Entry} {o : Outcome}
    (he : request.entries[i]? = some e)
    (ht : (perform table request limits turns).tasks[i]? = some (.finished o)) :
    Comes table request limits turns i e o := by
  cases stands turns he ht with
  | finished hcomes => exact hcomes

end SecretMount.Mount.Progress
