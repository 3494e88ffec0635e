import SecretMount.Proofs.Concrete
import SecretMount.Proofs.History
import SecretMount.Proofs.Independence

/-!
# Pinned versions

A version that a mount has reported can be asked for in place of what was asked for then. Whatever
was done with the backends in between, this gives the same version and the same file again.

* `Memory.Extends` : a backend that still has all versions of another, at the same places. Versions
  are never taken back (`Memory.extends_perform`), and neither are those of a fleet
  (`Fleet.extends_replay`);
* `Memory.answer_of_serves`, `Memory.Serves.pin` : what is served under a name is served again under
  the name that was told;
* `Mount.Delivery` : how an entry comes to its version and its file, from its name to the payload.
  `Mount.Delivery.settle`, `Mount.exists_delivery` : this is how entries succeed;
* `Mount.Delivery.pin` : a delivery can be had again for the version that it reports, by itself
  (`Mount.Delivery.result_pin`) or with all others (`Mount.result_pins`);
* `Mount.pinned_version_reproduces` : so can mounts.
-/

namespace SecretMount

open Backend

/-! ## Backends that grow -/

namespace Backend.Memory

/-- `m'` is `m` with nothing taken back. -/
structure Extends (m m' : Memory) : Prop where
  latency : m'.latency = m.latency
  versions : ∀ path, m.versions path <+: m'.versions path

theorem Extends.refl (m : Memory) : m.Extends m := ⟨rfl, fun _ => List.prefix_refl _⟩

theorem Extends.trans {m m' m'' : Memory} (h : m.Extends m') (h' : m'.Extends m'') :
    m.Extends m'' :=
  ⟨h'.latency.trans h.latency, fun path => (h.versions path).trans (h'.versions path)⟩

/-- No operation takes a version back. -/
theorem extends_perform (m : Memory) (op : Operation) : m.Extends (m.perform op) := by
  cases op with
  | addVersion added data =>
    refine ⟨rfl, fun path => ?_⟩
    rw [perform, versions_addVersion]
    split
    · next hpath =>
      subst hpath
      exact List.prefix_append _ _
    · exact List.prefix_refl _
  | failWith name failure => exact ⟨rfl, fun _ => List.prefix_refl _⟩
  | access name => exact ⟨rfl, fun _ => List.prefix_refl _⟩

variable {m m' : Memory} {n : VersionName} {number : Nat} {served : Served}

/-- What is served under a name is the answer to it, unless a failure takes its place. -/
theorem answer_of_serves {s : String} (hfree : m.failures.get? s = none)
    (hs : VersionName.parse s = .ok n) (h : Serves m n number served) :
    m.answer s = .ok served := by
  obtain ⟨hasked, hpos, hdata, hname⟩ := h
  rw [answer, hfree]
  simp only [lookUp, hs]
  cases hversions : m.secrets.get? n.secretPath with
  | none => simp [versions, hversions] at hdata
  | some versions =>
    have hall : m.versions n.secretPath = versions := by simp [Memory.versions, hversions]
    rw [hall] at hasked hdata
    have hnumber : numberOf versions n.version = number := by
      rcases hasked with hasked | ⟨hasked, rfl⟩
      · rw [hasked, numberOf]
      · rw [hasked, numberOf]
    have hne : number ≠ 0 := by omega
    simp only [hnumber, if_neg hne, hdata, ← hname]

/-- What was served under a name is served again under the name that was told. -/
theorem Serves.pin (h : Serves m n number served) (hm : m.Extends m') :
    Serves m' (n.withVersion (.number number)) number served := by
  refine ⟨Or.inl rfl, h.pos, ?_, h.name⟩
  obtain ⟨rest, hrest⟩ := hm.versions n.secretPath
  have hlt := (List.getElem?_eq_some_iff.1 h.data).1
  show (m'.versions n.secretPath)[number - 1]? = some served.data
  rw [← hrest, List.getElem?_append_left hlt, h.data]

end Backend.Memory

namespace Fleet

/-- Does something with the backend in memory that has this number. -/
def perform (f : Fleet) (id : Nat) (op : Memory.Operation) : Fleet :=
  match f.memory? id with
  | some m => f.update id (m.perform op)
  | none => f

/-- The fleet after operations on any of its backends, one after the other. -/
def replay (f : Fleet) (history : List (Nat × Memory.Operation)) : Fleet :=
  history.foldl (fun f e => f.perform e.1 e.2) f

/-- No failure takes the place of the version `s`, where this is routed to. -/
def Unblocked (f : Fleet) (ids : RoutingTable Nat) (s : String) : Prop :=
  ∀ n id m, VersionName.parse s = .ok n → ids.route n = .ok id → f.memory? id = some m →
    m.failures.get? s = none

/-- The backends in memory of `f` are all in `g`, with nothing taken back. -/
def Extends (f g : Fleet) : Prop :=
  ∀ id m, f.memory? id = some m → ∃ m', g.memory? id = some m' ∧ m.Extends m'

theorem Extends.trans {f g h : Fleet} (hfg : f.Extends g) (hgh : g.Extends h) : f.Extends h := by
  intro id m hm
  obtain ⟨m', hm', hext⟩ := hfg id m hm
  obtain ⟨m'', hm'', hext'⟩ := hgh id m' hm'
  exact ⟨m'', hm'', hext.trans hext'⟩

theorem extends_charge (f : Fleet) (ids : List Nat) : f.Extends (f.charge ids) := by
  intro id m hm
  refine ⟨{ m with calls := m.calls + ids.count id }, ?_, rfl, fun _ => List.prefix_refl _⟩
  rw [memory?_charge, hm, Option.map_some]

theorem memory?_update {f : Fleet} {id : Nat} {old : Memory} (hold : f.memory? id = some old)
    (m : Memory) (asked : Nat) :
    (f.update id m).memory? asked = if asked = id then some m else f.memory? asked := by
  have hlt : id < f.sources.length := by
    obtain ⟨s, hs, -⟩ := Option.bind_eq_some_iff.1 hold
    exact (List.getElem?_eq_some_iff.1 hs).1
  rw [memory?, get?, update, List.getElem?_set]
  by_cases hasked : id = asked
  · subst hasked
    simp [hlt, Source.memory?]
  · rw [if_neg hasked, if_neg (Ne.symm hasked)]
    rfl

theorem extends_perform (f : Fleet) (id : Nat) (op : Memory.Operation) :
    f.Extends (f.perform id op) := by
  intro asked m hm
  unfold perform
  split
  · next old hold =>
    rw [memory?_update hold]
    split
    · next hasked =>
      rw [hasked, hold] at hm
      cases hm
      exact ⟨_, rfl, m.extends_perform op⟩
    · exact ⟨m, hm, .refl m⟩
  · exact ⟨m, hm, .refl m⟩

theorem extends_replay (f : Fleet) (history : List (Nat × Memory.Operation)) :
    f.Extends (f.replay history) := by
  induction history generalizing f with
  | nil => exact fun id m hm => ⟨m, hm, .refl m⟩
  | cons e r ih => exact (f.extends_perform e.1 e.2).trans (ih (f.perform e.1 e.2))

end Fleet

/-! ## Deliveries -/

namespace Mount

/-- The same entry for the version `s`, whichever it was for. -/
def Entry.pin (e : Entry) (s : String) : Entry := { e with resourceName := s }

/-- The same outcome for an entry that asked for the version it came to. -/
def Resolved.pin (r : Resolved) : Resolved := ⟨⟨r.version.version, r.version.version⟩, r.file⟩

/-- The request for the versions that a response reports. -/
def Request.pin (request : Request) (response : Response) : Request :=
  { request with
    entries := request.entries.zipWith (fun e v => e.pin v.version) response.objectVersions }

/-- How the entry `e` comes to its version and its file: the backend that its name is routed to
serves a version in time, and its payload can be transformed. -/
structure Delivery (fleet : Fleet) (ids : RoutingTable Nat) (timeout : Option Nat) (e : Entry) where
  name : VersionName
  id : Nat
  memory : Memory
  number : Nat
  served : Served
  contents : Bytes
  destination : e.outputPath ≠ ""
  named : VersionName.parse e.resourceName = .ok name
  routed : ids.route name = .ok id
  found : fleet.memory? id = some memory
  inTime : InTime timeout (Duration.timer memory.latency)
  serves : memory.Serves name number served
  /-- What is served is told under a name of its own. -/
  told : VersionName.parse served.name = .ok (name.withVersion (.number number))
  transformed : Payload.transform served.data e.encoding e.extraction = .ok contents

namespace Delivery

variable {fleet after : Fleet} {ids : RoutingTable Nat} {timeout : Option Nat} {e : Entry}

def resolved (d : Delivery fleet ids timeout e) (permissions : Mode) : Resolved :=
  ⟨⟨e.resourceName, d.served.name⟩, ⟨e.outputPath, e.effectiveMode permissions, d.contents⟩⟩

/-- An entry that can be delivered is served by the handle of its backend. -/
theorem serves_handle (d : Delivery fleet ids timeout e) :
    Mount.Serves (ids.map fleet.handle) e ((Source.memory d.memory).handle d.id) := by
  refine ⟨d.destination, d.name, d.named, RoutingTable.route_eq_ok_iff.2 ?_⟩
  rw [RoutingTable.serving?_map, RoutingTable.route_eq_ok_iff.1 d.routed, Option.map_some,
    Fleet.handle_of_memory? d.found]

/-- An entry that can be delivered succeeds, unless a failure takes the place of its version. -/
theorem settle (d : Delivery fleet ids timeout e) (permissions : Mode)
    (hfree : d.memory.failures.get? e.resourceName = none) :
    Mount.settle (ids.map fleet.handle) permissions timeout e = .ok (d.resolved permissions) := by
  have hanswer : d.memory.answer e.resourceName = .ok d.served :=
    Memory.answer_of_serves hfree d.named d.serves
  have hversion : Fetch.concreteVersion? d.served.name = some (.number d.number) := by
    simp [Fetch.concreteVersion?, d.told, VersionName.withVersion, Version.isAlias]
  rw [settle_in_time d.serves_handle d.inTime, resolve_eq]
  simp only [Source.handle, Memory.reply, hanswer, hversion, d.transformed]
  rfl

/-- A delivery can be had again for the version that it reports. -/
theorem pin (d : Delivery fleet ids timeout e) (h : fleet.Extends after) :
    ∃ d' : Delivery after ids timeout (e.pin d.served.name),
      d'.id = d.id ∧ d'.served = d.served ∧ d'.contents = d.contents := by
  obtain ⟨m', hm', hextends⟩ := h d.id d.memory d.found
  have hroute : ids.route (d.name.withVersion (.number d.number)) = .ok d.id := d.routed
  exact ⟨⟨d.name.withVersion (.number d.number), d.id, m', d.number, d.served, d.contents,
    d.destination, d.told, hroute, hm', by rw [hextends.latency]; exact d.inTime,
    d.serves.pin hextends, d.told, d.transformed⟩, rfl, rfl, rfl⟩

/-- The entry for the version that was reported gives this version and the same file. -/
theorem settle_pin (d : Delivery fleet ids timeout e) (permissions : Mode)
    (h : fleet.Extends after) (hfree : after.Unblocked ids d.served.name) :
    Mount.settle (ids.map after.handle) permissions timeout (e.pin d.served.name) =
      .ok (d.resolved permissions).pin := by
  obtain ⟨d', -, hserved, hcontents⟩ := d.pin h
  rw [d'.settle permissions (hfree _ _ _ d'.named d'.routed d'.found), resolved, hserved, hcontents]
  rfl

/-- Its access goes to the same backend. -/
theorem access?_pin (d : Delivery fleet ids timeout e) (h : fleet.Extends after) :
    access? (ids.map after.handle) (e.pin d.served.name) = some (d.id, d.served.name) := by
  obtain ⟨d', hid, -, -⟩ := d.pin h
  exact access?_eq_some_iff.2 ⟨_, d'.serves_handle, by rw [hid]; rfl⟩

end Delivery

/-! ## Runs -/

variable {fleet after : Fleet} {ids : RoutingTable Nat} {request : Request} {limits : Limits}
  {cancel : Option Nat} {response : Response}

/-- All handles of the table are those of backends in memory, in states that operations lead to. -/
def InMemory (fleet : Fleet) (ids : RoutingTable Nat) : Prop :=
  ∀ l id, ids.serving? l = some id → ∃ m, fleet.memory? id = some m ∧ m.Reached

/-- An entry that succeeds has been delivered. -/
theorem exists_delivery (hmemory : InMemory fleet ids) {i : Nat} {e : Entry} {r : Resolved}
    (he : request.entries[i]? = some e)
    (hr : (clocked (ids.map fleet.handle) request limits cancel).outcomes[i]? = some (.ok r)) :
    ∃ d : Delivery fleet ids limits.timeout e, r = d.resolved request.permissions := by
  have hdone := clocked_done (ids.map fleet.handle) request limits cancel
  obtain ⟨o, ho⟩ := Progress.done_iff.1 hdone i e he
  have hcomes := Progress.comes he ho
  obtain rfl : o = .ok r := by
    rw [clocked, Progress.getElem?_outcomes, ho] at hr
    exact Option.some.inj hr
  obtain ⟨reply, served, contents, hreply, hanswer, -, hcontents, rfl⟩ := hcomes.ok
  obtain ⟨name, handle, hroute, hallows, rfl⟩ := answer_mem_timedTurns he hreply.mem
  obtain ⟨⟨hpath, asked, hname, hserving⟩, hnamed, htext⟩ := serves_of_route hroute
  cases hname.symm.trans hnamed
  rw [RoutingTable.route_eq_ok_iff, RoutingTable.serving?_map, Option.map_eq_some_iff] at hserving
  obtain ⟨id, hid, rfl⟩ := hserving
  obtain ⟨m, hfound, hm⟩ := hmemory _ id hid
  rw [Fleet.handle_of_memory? hfound] at hanswer hallows
  obtain ⟨number, hserves⟩ := Memory.serves_of_answer (htext ▸ hnamed) hanswer
  have htold := hm.parse_served (VersionName.wellFormed_of_parse hnamed) hserves
  exact ⟨⟨name, id, m, number, served, contents, hpath, hnamed, RoutingTable.route_eq_ok_iff.2 hid,
    hfound, allows_iff.1 hallows, hserves, htold, hcontents⟩, rfl⟩

/-- A mount that succeeds reports what its entries came to. -/
theorem exists_resolved {table : RoutingTable Handle}
    (hrun : (run table request limits cancel).result = .ok response) :
    ∃ resolved : List Resolved, resolved.length = request.entries.length ∧
      (clocked table request limits cancel).outcomes = resolved.map .ok ∧
      response = ⟨resolved.map Resolved.version, resolved.map Resolved.file⟩ := by
  have hlen : (clocked table request limits cancel).outcomes.length = request.entries.length := by
    rw [clocked, Progress.length_outcomes, Progress.length_tasks]
  obtain ⟨hok, rfl⟩ := (result_eq_ok_iff hlen).1 hrun
  obtain ⟨resolved, hresolved⟩ := exists_map_ok hok
  refine ⟨resolved, ?_, hresolved, ?_⟩
  · rw [← hlen, hresolved, List.length_map]
  · rw [hresolved, respond_map_ok]

theorem result_map_ok {entries : List Entry} {resolved : List Resolved}
    (hlen : resolved.length = entries.length) :
    result entries (resolved.map .ok) =
      .ok ⟨resolved.map Resolved.version, resolved.map Resolved.file⟩ := by
  refine (result_eq_ok_iff (by rw [List.length_map, hlen])).2 ⟨fun o ho => ?_, respond_map_ok _⟩
  obtain ⟨r, -, rfl⟩ := List.mem_map.1 ho
  exact ⟨r, rfl⟩

/-- Entries for all versions that were reported come to these versions and the same files. -/
theorem settle_pins (hmemory : InMemory fleet ids) {resolved : List Resolved}
    (hlen : resolved.length = request.entries.length)
    (houtcomes : (clocked (ids.map fleet.handle) request limits cancel).outcomes =
      resolved.map .ok)
    (h : fleet.Extends after) (hfree : ∀ r ∈ resolved, after.Unblocked ids r.version.version) :
    (request.entries.zipWith (fun e v => e.pin v.version) (resolved.map Resolved.version)).map
        (settle (ids.map after.handle) request.permissions limits.timeout) =
      (resolved.map Resolved.pin).map .ok := by
  refine List.ext_getElem? fun i => ?_
  simp only [List.getElem?_map, List.getElem?_zipWith]
  cases hr : resolved[i]? with
  | none =>
    have hi := List.getElem?_eq_none_iff.1 hr
    rw [List.getElem?_eq_none (by omega)]
    rfl
  | some r =>
    have hi := (List.getElem?_eq_some_iff.1 hr).1
    obtain ⟨e, he⟩ : ∃ e, request.entries[i]? = some e :=
      ⟨_, List.getElem?_eq_getElem (by omega)⟩
    obtain ⟨d, rfl⟩ := exists_delivery hmemory he
      (by rw [houtcomes, List.getElem?_map, hr, Option.map_some])
    have hunblocked := hfree (d.resolved request.permissions) (List.mem_of_getElem? hr)
    have hsettle := d.settle_pin request.permissions h hunblocked
    rw [he]
    exact congrArg some hsettle

/-- What a response reports for an entry was delivered to it. -/
theorem exists_delivery_of_response (hmemory : InMemory fleet ids)
    (hrun : (run (ids.map fleet.handle) request limits cancel).result = .ok response) {i : Nat}
    {e : Entry} {v : ObjectVersion} {f : File} (he : request.entries[i]? = some e)
    (hv : response.objectVersions[i]? = some v) (hf : response.files[i]? = some f) :
    ∃ d : Delivery fleet ids limits.timeout e,
      v.version = d.served.name ∧ f = (d.resolved request.permissions).file := by
  obtain ⟨resolved, -, houtcomes, rfl⟩ := exists_resolved hrun
  obtain ⟨r, hr, rfl⟩ := Option.map_eq_some_iff.1 (List.getElem?_map ▸ hv)
  obtain ⟨r', hr', rfl⟩ := Option.map_eq_some_iff.1 (List.getElem?_map ▸ hf)
  cases hr.symm.trans hr'
  obtain ⟨d, rfl⟩ := exists_delivery hmemory he
    (by rw [houtcomes, List.getElem?_map, hr, Option.map_some])
  exact ⟨d, rfl, rfl⟩

section Again

variable {e : Entry} {again : Limits}

/-- By itself, the entry for the version that was reported costs one access to the same backend. -/
theorem Delivery.accesses_pin (d : Delivery fleet ids limits.timeout e)
    (h : fleet.Extends after) :
    (run (ids.map after.handle) (request.only (e.pin d.served.name)) again none).accesses =
      [(d.id, d.served.name)] := by
  refine List.perm_singleton.1 (perm_accesses_run.trans (List.Perm.of_eq ?_))
  exact List.filterMap_cons_some (d.access?_pin h)

/-- By itself, the entry for the version that was reported gives this version and the same file. -/
theorem Delivery.result_pin (d : Delivery fleet ids limits.timeout e)
    (htimeout : again.timeout = limits.timeout) (h : fleet.Extends after)
    (hfree : after.Unblocked ids d.served.name) :
    (run (ids.map after.handle) (request.only (e.pin d.served.name)) again none).result =
      .ok ⟨[⟨d.served.name, d.served.name⟩], [(d.resolved request.permissions).file]⟩ := by
  have hsettle := d.settle_pin request.permissions h hfree
  have hmap : (request.only (e.pin d.served.name)).entries.map
      (Mount.settle (ids.map after.handle) request.permissions again.timeout) =
        [(d.resolved request.permissions).pin].map .ok := by
    simp only [Request.only, List.map_cons, List.map_nil, htimeout, hsettle]
  rw [result_run]
  exact (congrArg (result _) hmap).trans (result_map_ok rfl)

/-- The entries for all versions that were reported give these versions and the same files. -/
theorem result_pins (hmemory : InMemory fleet ids)
    (hrun : (run (ids.map fleet.handle) request limits cancel).result = .ok response)
    (htimeout : again.timeout = limits.timeout) (h : fleet.Extends after)
    (hfree : ∀ v ∈ response.objectVersions, after.Unblocked ids v.version) :
    (run (ids.map after.handle) (request.pin response) again none).result =
      .ok ⟨response.objectVersions.map fun v => ⟨v.version, v.version⟩, response.files⟩ := by
  obtain ⟨resolved, hlen, houtcomes, rfl⟩ := exists_resolved hrun
  have hsettle := settle_pins hmemory hlen houtcomes h fun r hr =>
    hfree _ (List.mem_map_of_mem hr)
  have hpin : (request.pin ⟨resolved.map Resolved.version, resolved.map Resolved.file⟩).entries =
      request.entries.zipWith (fun e v => e.pin v.version) (resolved.map Resolved.version) := rfl
  rw [result_run, hpin, htimeout]
  refine (congrArg (result _) hsettle).trans ?_
  rw [result_map_ok (by simp [hlen])]
  simp [Function.comp_def, Resolved.pin]

end Again

/-- **A version that was reported can be asked for again.** Take a mount that succeeds, with
backends in memory in any state that operations lead to, and any operations on these backends after
it. Where no failure takes the place of a version that the mount reported, the entry for this
version is routed to the same backend. By itself or in any other request that is not cancelled,
under the same timeout, it succeeds, reports this version again and gives the same file. So does a
request for all versions that were reported. -/
theorem pinned_version_reproduces (hmemory : InMemory fleet ids)
    (hrun : (run (ids.map fleet.handle) request limits cancel).result = .ok response)
    (history : List (Nat × Memory.Operation)) {again : Limits}
    (htimeout : again.timeout = limits.timeout) :
    let charged := fleet.charge
      ((run (ids.map fleet.handle) request limits cancel).accesses.map Prod.fst)
    let after := charged.replay history
    let table := ids.map after.handle
    (∀ (i : Nat) (e : Entry) (v : ObjectVersion) (f : File), request.entries[i]? = some e →
      response.objectVersions[i]? = some v → response.files[i]? = some f →
      after.Unblocked ids v.version →
      (∃ n n' id, VersionName.parse e.resourceName = .ok n ∧ ids.route n = .ok id ∧
        VersionName.parse v.version = .ok n' ∧ ids.route n' = .ok id ∧
        (run table (request.only (e.pin v.version)) again none).accesses = [(id, v.version)]) ∧
      (run table (request.only (e.pin v.version)) again none).result =
        .ok ⟨[⟨v.version, v.version⟩], [f]⟩ ∧
      ∀ (other : Request) (j : Nat), other.permissions = request.permissions →
        other.entries[j]? = some (e.pin v.version) →
        (clocked table other again none).outcomes[j]? =
          some (.ok ⟨⟨v.version, v.version⟩, f⟩)) ∧
    ((∀ v ∈ response.objectVersions, after.Unblocked ids v.version) →
      (run table (request.pin response) again none).result =
        .ok ⟨response.objectVersions.map fun v => ⟨v.version, v.version⟩, response.files⟩) := by
  intro charged after table
  have hextends : fleet.Extends after :=
    (fleet.extends_charge _).trans (charged.extends_replay history)
  refine ⟨fun i e v f he hv hf hfree => ?_, result_pins hmemory hrun htimeout hextends⟩
  obtain ⟨d, hversion, rfl⟩ := exists_delivery_of_response hmemory hrun he hv hf
  rw [hversion] at hfree ⊢
  refine ⟨⟨d.name, _, d.id, d.named, d.routed, d.told, d.routed, d.accesses_pin hextends⟩,
    d.result_pin htimeout hextends hfree, ?_⟩
  intro other j hpermissions hj
  rw [outcomes_clocked, List.getElem?_map, hj, Option.map_some, hpermissions, htimeout]
  exact congrArg some (d.settle_pin request.permissions hextends hfree)

/-- The version that was the newest is given again when there is a newer one. -/
theorem pinned_version_reproduces_newest :
    let path := "projects/p/secrets/s"
    let served := path ++ "/versions/1"
    let fleet : Fleet := ⟨[.memory ((Memory.new "memory" 0).addVersion path [7]).1]⟩
    let ids : RoutingTable Nat := .ofGeneral 0
    let e := Entry.new (path ++ "/versions/latest") "a"
    let request : Request := ⟨[e], 0, ⟨"", "", "", ""⟩, ""⟩
    let mounted := run (ids.map fleet.handle) request .standard none
    let after := (fleet.charge (mounted.accesses.map Prod.fst)).replay
      [(0, .addVersion path [8])]
    InMemory fleet ids ∧ mounted.result = .ok ⟨[⟨e.resourceName, served⟩], [⟨"a", 0, [7]⟩]⟩ ∧
      after.Unblocked ids served ∧
      (run (ids.map after.handle) (request.only (e.pin served)) ⟨1, none⟩ none).result =
        .ok ⟨[⟨served, served⟩], [⟨"a", 0, [7]⟩]⟩ := by
  intro path served fleet ids e request mounted after
  have hmemory : InMemory fleet ids := by
    intro l id hl
    cases l with
    | none =>
      cases hl
      exact ⟨_, rfl, .addVersion (.new "memory" 0) path [7] (by decide)⟩
    | some location => cases hl
  have hresult : mounted.result = .ok ⟨[⟨e.resourceName, served⟩], [⟨"a", 0, [7]⟩]⟩ := by
    decide +kernel
  have hfree : after.Unblocked ids served := by
    intro n id m hname hid hm
    have hserved : VersionName.parse served = .ok ⟨"p", none, "s", .number 1⟩ := by decide
    cases hserved.symm.trans hname
    cases hid
    have hnone : (after.memory? ids.general).bind (·.failures.get? served) = none := by
      decide +kernel
    rwa [hm] at hnone
  have hsame : (⟨1, none⟩ : Limits).timeout = Limits.standard.timeout := rfl
  obtain ⟨hentries, -⟩ := pinned_version_reproduces hmemory hresult
    [(0, .addVersion path [8])] hsame
  exact ⟨hmemory, hresult, hfree, (hentries 0 e _ _ rfl rfl rfl hfree).2.1⟩

end Mount

end SecretMount
