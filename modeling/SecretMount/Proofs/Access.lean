import Mathlib.Data.List.Basic
import SecretMount.Backend.Fleet
import SecretMount.Proofs.Clock
import SecretMount.Proofs.Stages

/-!
# What a request costs

Each entry that a handle serves costs one access, and the others cost none.

* `RoutingTable.serving?`, `RoutingTable.Distinct` : the handle of a location, and tables that do
  not share one between locations;
* `Mount.Entry.asksFor` : what makes an entry cost an access to the handle of a location;
* `Mount.Accessed` : the invariant. The accesses so far are those of the entries that have started,
  in the order in which they did;
* `Mount.perm_accesses` : what a request has cost when it is done, in whatever order its turns came;
* `Fleet.memory?_charge` : what a backend in memory counts.
-/

namespace SecretMount

/-! ## Tables -/

namespace RoutingTable

variable {H : Type}

/-- The handle for secrets in `location`, or for those without a location. -/
def serving? (t : RoutingTable H) : Option String → Option H
  | none => some t.general
  | some location => t.regional.get? location

theorem route_eq_ok_iff {t : RoutingTable H} {name : VersionName} {h : H} :
    t.route name = .ok h ↔ t.serving? name.location = some h := by
  unfold route serving?
  cases name.location with
  | none => simp
  | some location => cases hget : t.regional.get? location <;> simp [hget]

theorem serving?_map {K : Type} (f : H → K) (t : RoutingTable H) (l : Option String) :
    (t.map f).serving? l = (t.serving? l).map f := by
  cases l with
  | none => rfl
  | some location => exact Table.get?_map f t.regional location

/-- Each location has a handle of its own. -/
def Distinct (t : RoutingTable Backend.Handle) : Prop :=
  ∀ l l' h h', t.serving? l = some h → t.serving? l' = some h' → h.id = h'.id → l = l'

theorem distinct_ofGeneral (h : Backend.Handle) : (ofGeneral h).Distinct := by
  rintro (_ | location) (_ | location') h h' hl hl' -
  · rfl
  · cases hl'
  · cases hl
  · cases hl

theorem serving?_register (t : RoutingTable H) (location : String) (h : H) (l : Option String) :
    (t.register location h).serving? l = if l = some location then some h else t.serving? l := by
  cases l with
  | none => rfl
  | some asked =>
    by_cases hasked : asked = location
    · subst hasked
      simp [serving?, register]
    · simp [serving?, register, hasked]

/-- Locations that are registered with new handles share none. -/
theorem Distinct.register {t : RoutingTable Backend.Handle} (ht : t.Distinct) (location : String)
    {h : Backend.Handle} (hnew : ∀ l h', t.serving? l = some h' → h'.id ≠ h.id) :
    (t.register location h).Distinct := by
  intro l l' g g' hl hl' hid
  rw [serving?_register] at hl hl'
  split at hl
  · next heq =>
    split at hl'
    · next heq' => rw [heq, heq']
    · cases hl
      exact absurd hid.symm (hnew l' g' hl')
  · split at hl'
    · cases hl'
      exact absurd hid (hnew l g hl)
    · exact ht l l' g g' hl hl' hid

end RoutingTable

/-! ## Counters -/

theorem Backend.Source.memory?_charge (n : Nat) (s : Source) :
    (s.charge n).memory? = s.memory?.map fun m => { m with calls := m.calls + n } := by
  cases s <;> rfl

namespace Fleet

open Backend

theorem handle_of_memory? {f : Fleet} {id : Nat} {m : Memory} (h : f.memory? id = some m) :
    f.handle id = (Source.memory m).handle id := by
  obtain ⟨s, hs, hm⟩ := Option.bind_eq_some_iff.1 h
  cases s with
  | fixed endpoint answer => cases hm
  | memory m' =>
    cases hm
    rw [handle, hs, Option.getD_some]

/-- A backend in memory counts each access to it, and no other. -/
theorem memory?_charge (f : Fleet) (ids : List Nat) (id : Nat) :
    (f.charge ids).memory? id =
      (f.memory? id).map fun m => { m with calls := m.calls + ids.count id } := by
  simp only [memory?, get?, charge, List.getElem?_mapIdx]
  cases f.sources[id]? with
  | none => rfl
  | some s => exact Source.memory?_charge _ s

end Fleet

namespace Mount

open Backend

/-! ## The access for an entry -/

/-- Whether an entry has a destination, and a name in `location` or without one. -/
def Entry.asksFor (location : Option String) (e : Entry) : Bool :=
  !e.outputPath.isEmpty && (VersionName.parse e.resourceName).toOption.any (·.location == location)

/-- The access that an entry costs, if it costs one. -/
def access? (table : RoutingTable Handle) (e : Entry) : Option (Nat × String) :=
  match route table e with
  | .error _ => none
  | .ok (name, handle) => some (handle.id, name.text)

variable {table : RoutingTable Handle}

theorem asksFor_iff {location : Option String} {e : Entry} :
    e.asksFor location = true ↔
      e.outputPath ≠ "" ∧ ∃ name, VersionName.parse e.resourceName = .ok name ∧
        name.location = location := by
  simp only [Entry.asksFor, Bool.and_eq_true, Bool.not_eq_true', String.isEmpty_eq_false_iff]
  refine and_congr_right fun _ => ?_
  cases VersionName.parse e.resourceName with
  | error fault => simp [Except.toOption]
  | ok name => simp [Except.toOption]

/-- An entry is served by the handle of the location that it asks for. -/
theorem serves_iff {e : Entry} {h : Handle} :
    Serves table e h ↔ ∃ l, e.asksFor l = true ∧ table.serving? l = some h := by
  constructor
  · rintro ⟨hpath, name, hname, hroute⟩
    exact ⟨name.location, asksFor_iff.2 ⟨hpath, name, hname, rfl⟩,
      RoutingTable.route_eq_ok_iff.1 hroute⟩
  · rintro ⟨l, hasks, hserving⟩
    obtain ⟨hpath, name, hname, rfl⟩ := asksFor_iff.1 hasks
    exact ⟨hpath, name, hname, RoutingTable.route_eq_ok_iff.2 hserving⟩

theorem access?_eq_some_iff {e : Entry} {a : Nat × String} :
    access? table e = some a ↔ ∃ h, Serves table e h ∧ a = (h.id, e.resourceName) := by
  unfold access?
  constructor
  · intro ha
    split at ha
    · cases ha
    · next name handle hroute =>
      obtain ⟨hserves, -, htext⟩ := serves_of_route hroute
      cases ha
      exact ⟨handle, hserves, by rw [htext]⟩
  · rintro ⟨h, hserves, rfl⟩
    obtain ⟨name, hroute, htext⟩ := route_of_serves hserves
    rw [hroute, ← htext]

/-- Only the entries that ask for a location cost accesses to its handle, each under its name. -/
theorem access?_at (hdistinct : table.Distinct) {l : Option String} {h : Handle}
    (hl : table.serving? l = some h) (e : Entry) :
    ((access? table e).filter (·.1 == h.id)).map Prod.snd =
      if e.asksFor l = true then some e.resourceName else none := by
  split
  · next hasks =>
    have hserves : Serves table e h := serves_iff.2 ⟨l, hasks, hl⟩
    rw [access?_eq_some_iff.2 ⟨h, hserves, rfl⟩]
    simp
  · next hasks =>
    rw [Option.map_eq_none_iff, Option.filter_eq_none_iff]
    intro a ha hid
    obtain ⟨h', hserves, rfl⟩ := access?_eq_some_iff.1 ha
    obtain ⟨l', hasks', hl'⟩ := serves_iff.1 hserves
    cases hdistinct l' l h' h hl' hl (by simpa using hid)
    exact hasks hasks'

/-! ## The accesses of a run -/

/-- The accesses of `p` are those of the entries in `order`, which are those that have started. -/
structure Accessed (table : RoutingTable Handle) (request : Request) (p : Progress)
    (order : List Nat) : Prop where
  nodup : order.Nodup
  started : ∀ i, i ∈ order ↔ ∃ t, p.tasks[i]? = some t ∧ t ≠ .waiting
  accesses : p.accesses = order.filterMap fun i => request.entries[i]?.bind (access? table)

variable {request : Request} {limits : Limits}

theorem accessed_initial : Accessed table request (Progress.initial request) [] := by
  refine ⟨List.nodup_nil, fun i => ⟨fun hi => absurd hi List.not_mem_nil, ?_⟩, rfl⟩
  rintro ⟨t, ht, hstarted⟩
  simp only [Progress.initial, List.getElem?_map, Option.map_eq_some_iff] at ht
  obtain ⟨e, -, rfl⟩ := ht
  exact absurd rfl hstarted

/-- An entry starts: it is the next in order. -/
theorem Accessed.start {p q : Progress} {order : List Nat} (h : Accessed table request p order)
    {index : Nat} {e : Entry} {t : Task} (hentry : request.entries[index]? = some e)
    (htask : p.tasks[index]? = some .waiting) (ht : t ≠ .waiting)
    (htasks : q.tasks = p.tasks.set index t)
    (haccesses : q.accesses = p.accesses ++ (access? table e).toList) :
    Accessed table request q (order ++ [index]) := by
  have hlt : index < p.tasks.length := (List.getElem?_eq_some_iff.1 htask).1
  have hnew : index ∉ order := by
    intro hmem
    obtain ⟨u, hu, hstarted⟩ := (h.started index).1 hmem
    rw [htask] at hu
    exact hstarted (Option.some.inj hu).symm
  refine ⟨?_, fun i => ?_, ?_⟩
  · rw [List.nodup_append]
    exact ⟨h.nodup, by simp, by simpa using fun a ha => ne_of_mem_of_not_mem ha hnew⟩
  · rw [List.mem_append, List.mem_singleton, h.started, htasks, List.getElem?_set]
    by_cases hi : index = i
    · subst hi
      simp [hlt, ht]
    · simp [hi, Ne.symm hi]
  · rw [haccesses, h.accesses, List.filterMap_append]
    cases hcost : access? table e <;> simp [hentry, hcost]

/-- A task that has started does something else: the order stays. -/
theorem Accessed.proceed {p q : Progress} {order : List Nat} (h : Accessed table request p order)
    {index : Nat} {t u : Task} (htask : p.tasks[index]? = some u) (hu : u ≠ .waiting)
    (ht : t ≠ .waiting) (htasks : q.tasks = p.tasks.set index t)
    (haccesses : q.accesses = p.accesses) : Accessed table request q order := by
  have hlt : index < p.tasks.length := (List.getElem?_eq_some_iff.1 htask).1
  refine ⟨h.nodup, fun i => ?_, haccesses.trans h.accesses⟩
  rw [h.started, htasks, List.getElem?_set]
  by_cases hi : index = i
  · subst hi
    rw [htask]
    simp [hlt, ht, hu]
  · simp [hi]

theorem Accessed.change {p q : Progress} {turn : Turn} {order : List Nat}
    (h : Accessed table request p order) (hturn : turn ≠ .cancel) (hopen : p.cancelled = false)
    (hchange : Progress.Change table request limits p turn q) :
    ∃ order', Accessed table request q order' := by
  cases hchange with
  | idle => exact ⟨order, h⟩
  | unrouted hentry htask hroute =>
    exact ⟨_, h.start hentry htask (by simp) rfl (by simp [access?, hroute, Progress.setTask])⟩
  | refused _ _ _ hcancelled => cases hopen.symm.trans hcancelled
  | accessed hentry htask hroute =>
    exact ⟨_, h.start hentry htask (by simp) rfl (by simp [access?, hroute])⟩
  | answered _ htask => exact ⟨_, h.proceed htask (by simp) (by simp) rfl rfl⟩
  | expired htask => exact ⟨_, h.proceed htask (by simp) (by simp) rfl rfl⟩
  | cancelled => exact absurd rfl hturn

theorem accessed_perform {turns : List Turn} (hcancel : .cancel ∉ turns) :
    ∃ order, Accessed table request (Progress.perform table request limits turns) order := by
  refine Progress.perform_induction table request limits (P := fun turns p =>
    .cancel ∉ turns → ∃ order, Accessed table request p order) ?_ ?_ turns hcancel
  · exact fun _ => ⟨[], accessed_initial⟩
  · intro turns t q ih hchange hcancel
    simp only [List.mem_append, List.mem_singleton, not_or] at hcancel
    obtain ⟨order, h⟩ := ih hcancel.1
    have hopen := mt (Progress.cancelled_iff table request limits turns).1 hcancel.1
    exact h.change (Ne.symm hcancel.2) (Bool.not_eq_true _ ▸ hopen) hchange

theorem filterMap_getElem? {α : Type} (l : List α) :
    (List.range l.length).filterMap (l[·]?) = l := by
  induction l with
  | nil => rfl
  | cons a r ih =>
    rw [List.length_cons, List.range_succ_eq_map, List.filterMap_cons, List.filterMap_map]
    exact congrArg (a :: ·) ih

/-- **What a request costs.** When it is done, each entry has cost the access that is its own. -/
theorem perm_accesses {turns : List Turn} (hcancel : .cancel ∉ turns)
    (hdone : (Progress.perform table request limits turns).Done) :
    (Progress.perform table request limits turns).accesses.Perm
      (request.entries.filterMap (access? table)) := by
  obtain ⟨order, h⟩ : ∃ order, Accessed table request
      (Progress.perform table request limits turns) order := accessed_perform hcancel
  have hall : order.Perm (List.range request.entries.length) := by
    refine (List.perm_ext_iff_of_nodup h.nodup List.nodup_range).2 fun i => ?_
    rw [h.started, List.mem_range]
    constructor
    · rintro ⟨t, ht, -⟩
      obtain ⟨e, he⟩ := Progress.exists_entry ht
      exact (List.getElem?_eq_some_iff.1 he).1
    · intro hi
      obtain ⟨o, ho⟩ := Progress.done_iff.1 hdone i _ (List.getElem?_eq_getElem hi)
      exact ⟨_, ho, by simp⟩
  have hcosts := hall.filterMap fun i => request.entries[i]?.bind (access? table)
  rwa [← h.accesses, ← List.filterMap_filterMap, filterMap_getElem?] at hcosts

/-- By the clock, too, each entry costs the access that is its own. -/
theorem perm_accesses_run :
    (run table request limits none).accesses.Perm (request.entries.filterMap (access? table)) :=
  perm_accesses (by simp [cancel_mem_timedTurns]) (clocked_done table request limits none)

/-- Each entry that asks for the location of a handle costs it one access, under the name that the
entry gives. -/
theorem perm_filter_accesses (hdistinct : table.Distinct) {accesses : List (Nat × String)}
    (h : accesses.Perm (request.entries.filterMap (access? table))) {l : Option String}
    {handle : Handle} (hl : table.serving? l = some handle) :
    ((accesses.filter (·.1 == handle.id)).map Prod.snd).Perm
      ((request.entries.filter (Entry.asksFor l)).map Entry.resourceName) := by
  refine ((h.filter _).map _).trans (List.Perm.of_eq ?_)
  rw [List.filter_filterMap, List.map_filterMap, ← List.filterMap_eq_map, List.filterMap_filter]
  exact List.filterMap_congr fun e _ => access?_at hdistinct hl e

theorem count_accesses (hdistinct : table.Distinct) {accesses : List (Nat × String)}
    (h : accesses.Perm (request.entries.filterMap (access? table))) {l : Option String}
    {handle : Handle} (hl : table.serving? l = some handle) :
    (accesses.map Prod.fst).count handle.id = request.entries.countP (Entry.asksFor l) := by
  have hlength := (perm_filter_accesses hdistinct h hl).length_eq
  rw [List.length_map, List.length_map] at hlength
  rw [List.count, List.countP_map, List.countP_eq_length_filter, List.countP_eq_length_filter]
  exact hlength

/-- **Each entry costs one access, to the handle of its location and under the name it gives.** When
a request is done that was not cancelled, the handle of a location has been accessed for the entries
that ask for this location, once for each, and for no others. All accesses are to handles of the
table, an entry without a route costs none, and a backend in memory counts as many as there are.
The turns of the clock are such turns (`clocked_done`, `cancel_mem_timedTurns`). -/
theorem one_access_each (hdistinct : table.Distinct) {turns : List Turn}
    (hcancel : .cancel ∉ turns)
    (hdone : (Progress.perform table request limits turns).Done) :
    let accesses := (Progress.perform table request limits turns).accesses
    (∀ (l : Option String) (handle : Handle), table.serving? l = some handle →
      ((accesses.filter (·.1 == handle.id)).map Prod.snd).Perm
        ((request.entries.filter (Entry.asksFor l)).map Entry.resourceName) ∧
      ∀ (fleet : Fleet) (m : Memory), fleet.memory? handle.id = some m →
        (fleet.charge (accesses.map Prod.fst)).memory? handle.id =
          some { m with calls := m.calls + request.entries.countP (Entry.asksFor l) }) ∧
    (∀ a ∈ accesses, ∃ l handle, table.serving? l = some handle ∧ a.1 = handle.id) ∧
    ∀ (e : Entry) (cause : Cause), Misrouted table e cause →
      ∀ (l : Option String) (handle : Handle), table.serving? l = some handle →
        e.asksFor l = false := by
  intro accesses
  have hperm : accesses.Perm (request.entries.filterMap (access? table)) :=
    perm_accesses hcancel hdone
  refine ⟨fun l handle hl => ⟨perm_filter_accesses hdistinct hperm hl, ?_⟩, ?_, ?_⟩
  · intro fleet m hm
    rw [Fleet.memory?_charge, hm, count_accesses hdistinct hperm hl]
    rfl
  · intro a ha
    obtain ⟨e, -, hcost⟩ := List.mem_filterMap.1 (hperm.mem_iff.1 ha)
    obtain ⟨handle, hserves, rfl⟩ := access?_eq_some_iff.1 hcost
    obtain ⟨l, -, hl⟩ := serves_iff.1 hserves
    exact ⟨l, handle, hl, rfl⟩
  · intro e cause hmisrouted l handle hl
    refine Bool.eq_false_iff.2 fun hasks => ?_
    obtain ⟨name, hroute, -⟩ := route_of_serves (serves_iff.2 ⟨l, hasks, hl⟩)
    cases hroute.symm.trans (misrouted_iff.1 hmisrouted)

/-- Two entries for one name cost two accesses, of which one takes too long, and an entry without a
destination costs none. -/
theorem one_access_each_duplicate :
    let name := "projects/p/locations/l/secrets/s/versions/1"
    let handle (id : Nat) : Handle :=
      ⟨id, globalEndpoint, fun _ => 2, fun name => ⟨.ok ⟨name, []⟩, []⟩⟩
    let table : RoutingTable Handle := (RoutingTable.ofGeneral (handle 0)).register "l" (handle 1)
    let request : Request :=
      ⟨[.new name "a", .new name "", .new name "b"], 0, ⟨"", "", "", ""⟩, ""⟩
    let turns : List Turn :=
      [.start 0, .expire 0, .start 1, .start 2, .answer 2 ⟨.ok ⟨name, []⟩, []⟩]
    let progress := Progress.perform table request ⟨0, some 1⟩ turns
    table.Distinct ∧ .cancel ∉ turns ∧ progress.Done ∧
      ((progress.accesses.filter (·.1 == 1)).map Prod.snd).Perm [name, name] := by
  intro name handle table request turns progress
  have hdistinct : table.Distinct := by
    refine (RoutingTable.distinct_ofGeneral _).register "l" fun l h hl => ?_
    cases l with
    | none =>
      cases hl
      decide
    | some location => cases hl
  have hcancel : .cancel ∉ turns := by simp [turns]
  have hdone : progress.Done := by decide
  have hasked : (request.entries.filter (Entry.asksFor (some "l"))).map Entry.resourceName =
      [name, name] := by decide
  refine ⟨hdistinct, hcancel, hdone, ?_⟩
  rw [← hasked]
  exact ((one_access_each hdistinct hcancel hdone).1 (some "l") (handle 1) rfl).1

end Mount

end SecretMount
