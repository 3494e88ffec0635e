import Mathlib.Data.List.Forall2
import SecretMount.Proofs.Access
import SecretMount.Proofs.Independence

/-!
# Two runs side by side

Two fleets that differ only in the bytes of payloads give runs that take the same turns at the same
times, and that log the same as far as their outcomes do.

* `Backend.SameName`, `Backend.Handle.Alike`, `Backend.Memory.Alike`, `Fleet.Alike` : answers,
  handles and backends that differ only in bytes;
* `RoutingTable.Alike`, `Mount.route_alike` : entries have the same routes on such handles;
* `Mount.Turn.Alike`, `Mount.timedTurns_alike` : the turns of the clock are the same but for bytes;
* `Progress.InStep` : what the two runs have in common, kept by each turn (`Progress.InStep.step`)
  and so by all of them (`Progress.inStep_perform`, `Mount.inStep_clocked`).
-/

namespace SecretMount

/-! ## Lists side by side -/

section Lists

variable {α β : Type} {R : α → β → Prop} {l : List α} {m : List β}

theorem forall₂_getElem? (h : List.Forall₂ R l m) (i : Nat) : Option.Rel R l[i]? m[i]? := by
  induction h generalizing i with
  | nil => exact .none
  | cons hab _ ih =>
    cases i with
    | zero => exact .some hab
    | succ i => exact ih i

theorem forall₂_set (h : List.Forall₂ R l m) {i : Nat} {a : α} {b : β} (hab : R a b) :
    List.Forall₂ R (l.set i a) (m.set i b) := by
  induction h generalizing i with
  | nil => exact .nil
  | cons hcd htail ih =>
    cases i with
    | zero => exact .cons hab htail
    | succ i => exact .cons hcd ih

end Lists

/-! ## Backends -/

namespace Backend

/-- Answers that differ only in the bytes that are served. -/
inductive SameName : Answer → Answer → Prop
  | failure (f : Failure) : SameName (.error f) (.error f)
  | served (name : String) (data data' : Bytes) : SameName (.ok ⟨name, data⟩) (.ok ⟨name, data'⟩)

/-- Handles whose answers differ only in bytes. -/
structure Handle.Alike (h k : Handle) : Prop where
  id : h.id = k.id
  endpoint : h.endpoint = k.endpoint
  latency : h.latency = k.latency
  answer : ∀ name, SameName (h.reply name).answer (k.reply name).answer
  events : ∀ name, (h.reply name).events = (k.reply name).events

/-- Backends in memory that have the same secrets, with as many versions of each. -/
structure Memory.Alike (m k : Memory) : Prop where
  endpoint : m.endpoint = k.endpoint
  latency : m.latency = k.latency
  failures : m.failures = k.failures
  versions : ∀ path,
    (m.secrets.get? path).map List.length = (k.secrets.get? path).map List.length

theorem Memory.Alike.refl (m : Memory) : m.Alike m := ⟨rfl, rfl, rfl, fun _ => rfl⟩

/-- Other bytes may be added to both. -/
theorem Memory.Alike.addVersion {m k : Memory} (h : m.Alike k) (path : String)
    (data data' : Bytes) : (m.addVersion path data).1.Alike (k.addVersion path data').1 := by
  refine ⟨h.endpoint, h.latency, h.failures, fun other => ?_⟩
  simp only [Memory.addVersion]
  by_cases hpath : other = path
  · subst hpath
    have hversions := h.versions other
    rw [Table.get?_put_self, Table.get?_put_self, Option.map_some, Option.map_some,
      List.length_append, List.length_append, Memory.versions, Memory.versions,
      ← Option.getD_map List.length, ← Option.getD_map List.length, hversions]
    rfl
  · rw [Table.get?_put_of_ne _ _ hpath, Table.get?_put_of_ne _ _ hpath]
    exact h.versions other

theorem Memory.Alike.lookUp {m k : Memory} (h : m.Alike k) (name : String) :
    SameName (m.lookUp name) (k.lookUp name) := by
  unfold Memory.lookUp
  cases VersionName.parse name with
  | error fault => exact SameName.failure _
  | ok n =>
    simp only
    have hlength := h.versions n.secretPath
    cases hm : m.secrets.get? n.secretPath with
    | none =>
      rw [hm, Option.map_none, eq_comm, Option.map_eq_none_iff] at hlength
      simp only [hlength]
      exact .failure _
    | some versions =>
      rw [hm, Option.map_some, eq_comm, Option.map_eq_some_iff] at hlength
      obtain ⟨others, hk, hlen⟩ := hlength
      have hnumber : numberOf others n.version = numberOf versions n.version := by
        cases n.version with
        | latest => exact hlen
        | number i => rfl
      simp only [hk, hnumber]
      generalize numberOf versions n.version = number
      by_cases hzero : number = 0
      · rw [if_pos hzero, if_pos hzero]
        exact .failure _
      · rw [if_neg hzero, if_neg hzero]
        by_cases hlt : number - 1 < versions.length
        · rw [List.getElem?_eq_getElem hlt, List.getElem?_eq_getElem (by omega)]
          exact .served _ _ _
        · rw [List.getElem?_eq_none (by omega), List.getElem?_eq_none (by omega)]
          exact .failure _

theorem Memory.Alike.answer {m k : Memory} (h : m.Alike k) (name : String) :
    SameName (m.answer name) (k.answer name) := by
  unfold Memory.answer
  rw [← h.failures]
  split
  · exact .failure _
  · exact h.lookUp name

inductive Source.Alike : Source → Source → Prop
  | memory {m k : Memory} (h : m.Alike k) : Alike (.memory m) (.memory k)
  | fixed (endpoint : String) {a b : Answer} (h : SameName a b) :
      Alike (.fixed endpoint a) (.fixed endpoint b)

theorem Source.Alike.handle {s t : Source} (h : s.Alike t) (id : Nat) :
    (s.handle id).Alike (t.handle id) := by
  cases h with
  | memory h =>
    refine ⟨rfl, h.endpoint, ?_, h.answer, ?_⟩
    · simp only [Source.handle, h.latency]
    · intro name
      simp only [Source.handle, Memory.reply, Memory.events, h.failures]
  | fixed endpoint h => exact ⟨rfl, rfl, rfl, fun _ => h, fun _ => rfl⟩

end Backend

open Backend

/-- Fleets that differ only in bytes. -/
def Fleet.Alike (f g : Fleet) : Prop := List.Forall₂ Source.Alike f.sources g.sources

theorem Fleet.Alike.handle {f g : Fleet} (h : f.Alike g) (id : Nat) :
    (f.handle id).Alike (g.handle id) := by
  have hsource := forall₂_getElem? h id
  unfold Fleet.handle Fleet.get?
  generalize f.sources[id]? = source, g.sources[id]? = other at hsource ⊢
  cases hsource with
  | none => exact (Source.Alike.fixed _ (.failure _)).handle id
  | some halike => exact halike.handle id

/-! ## Routes -/

/-- Tables with the same locations, whose handles differ only in bytes. -/
def RoutingTable.Alike (t u : RoutingTable Handle) : Prop :=
  ∀ l, Option.Rel Handle.Alike (t.serving? l) (u.serving? l)

theorem Fleet.Alike.table {f g : Fleet} (h : f.Alike g) (t : RoutingTable Nat) :
    (t.map f.handle).Alike (t.map g.handle) := by
  intro l
  rw [RoutingTable.serving?_map, RoutingTable.serving?_map]
  cases t.serving? l with
  | none => exact .none
  | some id => exact .some (h.handle id)

theorem RoutingTable.Alike.route {t u : RoutingTable Handle} (h : t.Alike u) (name : VersionName) :
    (∃ location, t.route name = .error location ∧ u.route name = .error location) ∨
      ∃ handle other, t.route name = .ok handle ∧ u.route name = .ok other ∧
        handle.Alike other := by
  have hserving := h name.location
  unfold RoutingTable.route
  unfold RoutingTable.serving? at hserving
  cases hlocation : name.location with
  | none =>
    simp only [hlocation, Option.rel_some_some] at hserving
    exact Or.inr ⟨_, _, rfl, rfl, hserving⟩
  | some location =>
    simp only [hlocation] at hserving
    simp only
    cases ht : t.regional.get? location with
    | none =>
      rw [ht] at hserving
      cases hu : u.regional.get? location with
      | none => exact Or.inl ⟨location, rfl, rfl⟩
      | some other =>
        rw [hu] at hserving
        cases hserving
    | some handle =>
      rw [ht] at hserving
      cases hu : u.regional.get? location with
      | none =>
        rw [hu] at hserving
        cases hserving
      | some other =>
        rw [hu, Option.rel_some_some] at hserving
        exact Or.inr ⟨handle, other, rfl, rfl, hserving⟩

namespace Mount

variable {t u : RoutingTable Handle}

theorem route_alike (h : t.Alike u) (e : Entry) :
    (∃ cause, route t e = .error cause ∧ route u e = .error cause) ∨
      ∃ name handle other, route t e = .ok (name, handle) ∧ route u e = .ok (name, other) ∧
        handle.Alike other := by
  rw [route_eq, route_eq]
  by_cases hpath : e.outputPath = ""
  · rw [if_pos hpath, if_pos hpath]
    exact Or.inl ⟨_, rfl, rfl⟩
  · rw [if_neg hpath, if_neg hpath]
    cases VersionName.parse e.resourceName with
    | error fault => exact Or.inl ⟨_, rfl, rfl⟩
    | ok name =>
      rcases h.route name with ⟨location, ht, hu⟩ | ⟨handle, other, ht, hu, halike⟩
      · exact Or.inl ⟨.unrouted location, by simp only [ht], by simp only [hu]⟩
      · exact Or.inr ⟨name, handle, other, by simp only [ht], by simp only [hu], halike⟩

/-! ## Turns -/

/-- Outcomes that are logged in the same way when they come. -/
def SameResolved (o o' : Outcome) : Prop := resolvedEvents o = resolvedEvents o'

/-- Turns that differ only in the bytes of replies, and that are logged in the same way. -/
inductive Turn.Alike (request : Request) : Turn → Turn → Prop
  | start (index : Nat) : Alike request (.start index) (.start index)
  | answer {index : Nat} {r s : Reply} (hanswer : SameName r.answer s.answer)
      (hevents : r.events = s.events)
      (hresolved : ∀ e, request.entries[index]? = some e →
        SameResolved (resolve e request.permissions r.answer)
          (resolve e request.permissions s.answer)) :
      Alike request (.answer index r) (.answer index s)
  | expire (index : Nat) : Alike request (.expire index) (.expire index)
  | cancel : Alike request .cancel .cancel

/-- Such turns at the same time. -/
def TimedAlike (request : Request) (a b : Nat × Turn) : Prop :=
  a.1 = b.1 ∧ a.2.Alike request b.2

variable {request : Request} {limits : Limits}

theorem finishTime_alike (h : t.Alike u) (e : Entry) :
    finishTime t limits none e = finishTime u limits none e := by
  funext start
  unfold finishTime
  rcases route_alike h e with ⟨cause, ht, hu⟩ | ⟨name, handle, other, ht, hu, halike⟩
  · simp only [ht, hu]
  · simp only [ht, hu, halike.latency]

theorem slots_alike (h : t.Alike u) :
    slots t request limits none = slots u request limits none := by
  have hjobs : finishTime t limits none = finishTime u limits none :=
    funext fun e => finishTime_alike h e
  rw [slots, slots, hjobs]

/-- The end of the access for an entry that is logged in the same way by both. -/
theorem lastTurn_alike {index : Nat} {e : Entry} {name : VersionName} {handle other : Handle}
    (he : request.entries[index]? = some e) (ht : route t e = .ok (name, handle))
    (hu : route u e = .ok (name, other)) (halike : handle.Alike other)
    (hresolved : SameResolved (settle t request.permissions limits.timeout e)
      (settle u request.permissions limits.timeout e)) :
    (limits.lastTurn index name handle).Alike request (limits.lastTurn index name other) := by
  unfold Limits.lastTurn
  rw [← halike.latency]
  split
  · next hallows =>
    refine .answer (halike.answer _) (halike.events _) fun d hd => ?_
    cases he.symm.trans hd
    obtain ⟨hserves, -, htext⟩ := serves_of_route ht
    obtain ⟨hother, -, -⟩ := serves_of_route hu
    have htime : InTime limits.timeout (handle.latency e.resourceName) := by
      rw [← htext]
      exact allows_iff.1 hallows
    rw [settle_in_time hserves htime, settle_in_time hother (halike.latency ▸ htime)] at hresolved
    rwa [htext]
  · exact .expire index

theorem entryTurns_alike (h : t.Alike u) {index : Nat} {e : Entry}
    (he : request.entries[index]? = some e)
    (hresolved : SameResolved (settle t request.permissions limits.timeout e)
      (settle u request.permissions limits.timeout e)) (start : Nat) :
    List.Forall₂ (TimedAlike request) (entryTurns t limits index e start)
      (entryTurns u limits index e start) := by
  unfold entryTurns
  refine .cons ⟨rfl, .start index⟩ ?_
  rcases route_alike h e with ⟨cause, ht, hu⟩ | ⟨name, handle, other, ht, hu, halike⟩
  · simp only [ht, hu]
    exact .nil
  · simp only [ht, hu]
    refine .cons ⟨?_, lastTurn_alike he ht hu halike hresolved⟩ .nil
    simp only [halike.latency]

theorem insertTurn_alike {a b : Nat × Turn} (hab : TimedAlike request a b)
    {l m : List (Nat × Turn)} (h : List.Forall₂ (TimedAlike request) l m) :
    List.Forall₂ (TimedAlike request) (insertTurn a l) (insertTurn b m) := by
  induction h with
  | nil => exact .cons hab .nil
  | @cons c d l m hcd hlm ih =>
    unfold insertTurn
    rw [hab.1, hcd.1]
    split
    · exact .cons hab (.cons hcd hlm)
    · exact .cons hcd ih

/-- The turns of the clock are the same but for bytes. -/
theorem timedTurns_alike (h : t.Alike u)
    (hresolved : ∀ e ∈ request.entries,
      SameResolved (settle t request.permissions limits.timeout e)
        (settle u request.permissions limits.timeout e)) :
    List.Forall₂ (TimedAlike request) (timedTurns t request limits none)
      (timedTurns u request limits none) := by
  simp only [timedTurns, ← slots_alike h, Option.map_none, Option.toList_none, List.nil_append]
  refine List.rel_foldl (P := List.Forall₂ (TimedAlike request)) (R := TimedAlike request)
    (fun _ _ hacc _ _ hab => insertTurn_alike hab hacc) .nil ?_
  refine List.rel_flatMap (R := fun x y => x = y ∧
    x ∈ request.entries.zipIdx.zip (slots t request limits none))
    (List.forall₂_same.2 fun x hx => ⟨rfl, hx⟩) ?_
  rintro ⟨⟨e, index⟩, slot⟩ _ ⟨rfl, hmem⟩
  have he := (mem_zip_slots.1 hmem).1
  exact entryTurns_alike h he (hresolved e (List.mem_of_getElem? he)) slot.start

/-! ## Progress -/

/-- Tasks that have come equally far. -/
inductive Task.Alike : Task → Task → Prop
  | waiting : Alike .waiting .waiting
  | fetching (name : VersionName) : Alike (.fetching name) (.fetching name)
  | finished (o o' : Outcome) : Alike (.finished o) (.finished o')

theorem Task.Alike.cancel {a b : Task} (h : a.Alike b) : a.cancel.Alike b.cancel := by
  cases h with
  | waiting => exact .waiting
  | fetching | finished => exact .finished _ _

theorem Task.Alike.isFinished {a b : Task} (h : a.Alike b) : a.isFinished = b.isFinished := by
  cases h <;> rfl

theorem takeWhile_isFinished_alike {l m : List Task} (h : List.Forall₂ Task.Alike l m) :
    List.Forall₂ Task.Alike (l.takeWhile Task.isFinished) (m.takeWhile Task.isFinished) := by
  induction h with
  | nil => exact .nil
  | cons hab _ ih =>
    rw [List.takeWhile_cons, List.takeWhile_cons, hab.isFinished]
    split
    · exact .cons hab ih
    · exact .nil

namespace Progress

/-- What two runs have in common that take the same turns. -/
structure InStep (p q : Progress) : Prop where
  tasks : List.Forall₂ Task.Alike p.tasks q.tasks
  cancelled : p.cancelled = q.cancelled
  events : p.events = q.events

variable {p q : Progress}

theorem InStep.initial : InStep (initial request) (initial request) where
  tasks := by
    refine List.forall₂_same.2 fun task htask => ?_
    obtain ⟨-, -, rfl⟩ := List.mem_map.1 htask
    exact .waiting
  cancelled := rfl
  events := rfl

theorem InStep.hasSlot (h : InStep p q) (i : Nat) : p.hasSlot limits i = q.hasSlot limits i := by
  have htaken := (takeWhile_isFinished_alike h.tasks).length_eq
  rw [Progress.hasSlot, Progress.hasSlot, taken, taken, htaken]

theorem InStep.setTask (h : InStep p q) (i : Nat) {a b : Task} (hab : a.Alike b) :
    InStep (p.setTask i a) (q.setTask i b) :=
  ⟨forall₂_set h.tasks hab, h.cancelled, h.events⟩

theorem InStep.start (h : InStep p q) (htable : t.Alike u) (i : Nat) (e : Entry) :
    InStep (p.start t i e) (q.start u i e) := by
  unfold Progress.start
  rcases route_alike htable e with ⟨cause, ht, hu⟩ | ⟨name, handle, other, ht, hu, halike⟩
  · simp only [ht, hu]
    exact h.setTask i (.finished _ _)
  · simp only [ht, hu, h.cancelled]
    split
    · exact h.setTask i (.finished _ _)
    · refine ⟨(h.setTask i (.fetching name)).tasks, h.cancelled, ?_⟩
      simp only [h.events, halike.endpoint]

/-- What is logged about the version that is served does not depend on its bytes. -/
theorem closing_eq {a b : Answer} (h : SameName a b) (name : VersionName) :
    Fetch.closing name a = Fetch.closing name b := by
  cases h <;> rfl

theorem InStep.answer (h : InStep p q) (i : Nat) (e : Entry) (name : VersionName) {r s : Reply}
    (hanswer : SameName r.answer s.answer) (hevents : r.events = s.events)
    (hresolved : SameResolved (resolve e request.permissions r.answer)
      (resolve e request.permissions s.answer)) :
    InStep (p.answer request i e name r) (q.answer request i e name s) := by
  refine ⟨(h.setTask i (.finished _ _)).tasks, h.cancelled, ?_⟩
  unfold SameResolved at hresolved
  simp only [Progress.answer, h.events, hevents, closing_eq hanswer, hresolved]

/-- One turn of each run. -/
theorem InStep.step (h : InStep p q) (htable : t.Alike u) {a b : Turn}
    (hab : a.Alike request b) :
    InStep (step t request limits p a) (step u request limits q b) := by
  -- a turn is possible in both or in neither, as the tasks at its index have come equally far
  cases hab with
  | start i =>
    have htask := forall₂_getElem? h.tasks i
    simp only [Progress.step, h.hasSlot i]
    cases request.entries[i]? with
    | none => exact h
    | some e =>
      generalize p.tasks[i]? = task, q.tasks[i]? = other at htask ⊢
      cases htask with
      | none => exact h
      | some htask =>
        cases htask with
        | waiting =>
          dsimp only
          split
          · exact h.start htable i e
          · exact h
        | fetching | finished => exact h
  | @answer i r s hanswer hevents hresolved =>
    have htask := forall₂_getElem? h.tasks i
    simp only [Progress.step]
    cases he : request.entries[i]? with
    | none => exact h
    | some e =>
      generalize p.tasks[i]? = task, q.tasks[i]? = other at htask ⊢
      cases htask with
      | none => exact h
      | some htask =>
        cases htask with
        | fetching name => exact h.answer i e name hanswer hevents (hresolved e he)
        | waiting | finished => exact h
  | expire i =>
    have htask := forall₂_getElem? h.tasks i
    simp only [Progress.step]
    cases limits.timeout with
    | none => exact h
    | some limit =>
      generalize p.tasks[i]? = task, q.tasks[i]? = other at htask ⊢
      cases htask with
      | none => exact h
      | some htask =>
        cases htask with
        | fetching name => exact h.setTask i (.finished _ _)
        | waiting | finished => exact h
  | cancel => exact ⟨List.rel_map (fun _ _ hab => hab.cancel) h.tasks, rfl, h.events⟩

/-- As many turns of each run. -/
theorem inStep_perform (htable : t.Alike u) {turns others : List Turn}
    (h : List.Forall₂ (Turn.Alike request) turns others) :
    InStep (perform t request limits turns) (perform u request limits others) :=
  List.rel_foldl (fun _ _ hpq _ _ hab => hpq.step htable hab) .initial h

end Progress

/-- **Runs by the clock that end alike keep in step.** -/
theorem inStep_clocked (htable : t.Alike u)
    (hresolved : ∀ e ∈ request.entries,
      SameResolved (settle t request.permissions limits.timeout e)
        (settle u request.permissions limits.timeout e)) :
    Progress.InStep (clocked t request limits none) (clocked u request limits none) :=
  Progress.inStep_perform htable
    (List.rel_map (fun _ _ hab => hab.2) (timedTurns_alike htable hresolved))

end Mount

end SecretMount
