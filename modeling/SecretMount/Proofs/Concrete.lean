import SecretMount.Proofs.Access
import SecretMount.Proofs.Collection
import SecretMount.Proofs.Grammar

/-!
# Concrete versions

A version that is reported is a number, whatever backends answer.

* `Fetch.Unresolved`, `Fetch.Concrete` : names without and with a number, of which every name is one
  (`Fetch.concrete_iff`);
* `Fetch.result_eq_backend_iff`, `Fetch.result_eq_unresolved_iff`, `Fetch.result_eq_ok_iff` : what
  answers come to;
* `Memory.Reached` : the states of a backend in memory that operations lead to;
* `Memory.Serves`, `Memory.serves_of_answer` : what a backend in memory serves under a name. It
  always tells the number (`Memory.Reached.concrete_of_answer`);
* `Mount.versions_concrete` : all of it, for accesses and for requests.
-/

namespace SecretMount

open Backend

/-! ## Answers -/

namespace Mount.Fetch

/-- The name is none, or that of the newest version. -/
def Unresolved (s : String) : Prop :=
  (∃ fault, VersionName.parse s = .error fault) ∨
    ∃ n, VersionName.parse s = .ok n ∧ n.version = .latest

/-- The name is that of a version with a number. -/
def Concrete (s : String) : Prop :=
  ∃ n k, VersionName.parse s = .ok n ∧ n.version = .number k ∧ 1 ≤ k ∧ k ≤ 18446744073709551615

theorem concrete_iff {s : String} : Concrete s ↔ ¬ Unresolved s := by
  constructor
  · rintro ⟨n, k, hname, hversion, -, -⟩ (⟨fault, hfault⟩ | ⟨m, hm, hlatest⟩)
    · cases hname.symm.trans hfault
    · cases hname.symm.trans hm
      cases hversion.symm.trans hlatest
  · intro h
    cases hname : VersionName.parse s with
    | error fault => exact absurd (Or.inl ⟨fault, hname⟩) h
    | ok n =>
      cases hversion : n.version with
      | latest => exact absurd (Or.inr ⟨n, hname, hversion⟩) h
      | number k =>
        have hvalid := (VersionName.wellFormed_of_parse hname).version
        rw [hversion] at hvalid
        exact ⟨n, k, hname, hversion, hvalid.1, hvalid.2⟩

theorem concreteVersion?_eq_none_iff {s : String} :
    concreteVersion? s = none ↔ Unresolved s := by
  unfold concreteVersion? Unresolved
  cases hname : VersionName.parse s with
  | error fault => simp
  | ok n => cases hversion : n.version <;> simp [hversion, Version.isAlias]

theorem result_eq_backend_iff {answer : Answer} {failure : Backend.Failure} :
    result answer = .error (.backend failure) ↔ answer = .error failure := by
  cases answer with
  | error f => simp [result]
  | ok served => cases hversion : concreteVersion? served.name <;> simp [result, hversion]

theorem result_eq_unresolved_iff {answer : Answer} {served : String} :
    result answer = .error (.unresolved served) ↔
      ∃ data, answer = .ok ⟨served, data⟩ ∧ Unresolved served := by
  cases answer with
  | error f => simp [result]
  | ok s =>
    obtain ⟨name, data⟩ := s
    simp only [Except.ok.injEq, Served.mk.injEq, ← concreteVersion?_eq_none_iff]
    constructor
    · intro h
      cases hversion : concreteVersion? name with
      | none =>
        simp only [result, hversion, Except.error.injEq, Cause.unresolved.injEq] at h
        exact ⟨data, ⟨h, rfl⟩, h ▸ hversion⟩
      | some version => simp [result, hversion] at h
    · rintro ⟨_, ⟨rfl, -⟩, hversion⟩
      simp [result, hversion]

theorem result_eq_ok_iff {answer : Answer} {fetched : Fetched} :
    result answer = .ok fetched ↔
      answer = .ok ⟨fetched.version, fetched.data⟩ ∧ ¬ Unresolved fetched.version := by
  obtain ⟨version, contents⟩ := fetched
  cases answer with
  | error f => simp [result]
  | ok s =>
    obtain ⟨name, data⟩ := s
    simp only [Except.ok.injEq, Served.mk.injEq, ← concreteVersion?_eq_none_iff]
    constructor
    · intro h
      cases hversion : concreteVersion? name with
      | none => simp [result, hversion] at h
      | some v =>
        simp only [result, hversion, Except.ok.injEq, Fetched.mk.injEq] at h
        obtain ⟨rfl, rfl⟩ := h
        exact ⟨⟨rfl, rfl⟩, by simp [hversion]⟩
    · rintro ⟨⟨rfl, rfl⟩, hversion⟩
      obtain ⟨v, hv⟩ := Option.ne_none_iff_exists'.1 hversion
      simp [result, hv]

end Mount.Fetch

/-! ## Backends in memory -/

namespace Backend.Memory

/-- The states of a backend in memory that operations lead to. The numbers of versions have 64 bits,
so a secret that has used them all takes no other version. -/
inductive Reached : Memory → Prop
  | new (endpoint : String) (latency : Nat) : Reached (new endpoint latency)
  | addVersion {m : Memory} (h : Reached m) (path : String) (data : Bytes)
      (hroom : (m.versions path).length < Numeral.max64) : Reached (m.addVersion path data).1
  | failWith {m : Memory} (h : Reached m) (name : String) (failure : Failure) :
      Reached (m.failWith name failure)
  | access {m : Memory} (h : Reached m) (name : String) : Reached (m.access name).1

theorem versions_addVersion (m : Memory) (path asked : String) (data : Bytes) :
    (m.addVersion path data).1.versions asked =
      if asked = path then m.versions path ++ [data] else m.versions asked := by
  by_cases h : asked = path
  · subst h
    simp [addVersion, versions]
  · simp [addVersion, versions, h]

/-- No operation leads to more versions of a secret than there are numbers. -/
theorem Reached.length_versions_le {m : Memory} (h : Reached m) (path : String) :
    (m.versions path).length ≤ Numeral.max64 := by
  induction h with
  | new endpoint latency => exact Nat.zero_le _
  | @addVersion m h added data hroom ih =>
    rw [versions_addVersion]
    split
    · rw [List.length_append, List.length_singleton]
      exact hroom
    · exact ih
  | failWith h name failure ih => exact ih
  | access h name ih => exact ih

/-- What is served under the name `n`: the bytes of one version of the secret, under its number. -/
structure Serves (m : Memory) (n : VersionName) (number : Nat) (served : Served) : Prop where
  /-- The number is the one that is asked for, or that of the newest version. -/
  asked : n.version = .number number ∨
    n.version = .latest ∧ number = (m.versions n.secretPath).length
  pos : 1 ≤ number
  data : (m.versions n.secretPath)[number - 1]? = some served.data
  name : served.name = (n.withVersion (.number number)).text

theorem serves_of_answer {m : Memory} {s : String} {n : VersionName} {served : Served}
    (hs : VersionName.parse s = .ok n) (h : m.answer s = .ok served) :
    ∃ number, Serves m n number served := by
  unfold answer at h
  split at h
  · cases h
  · rw [lookUp, hs] at h
    simp only at h
    split at h
    · cases h
    · next versions hversions =>
      have hall : m.versions n.secretPath = versions := by simp [Memory.versions, hversions]
      split at h
      · cases h
      · next data hdata =>
        split at hdata
        · cases hdata
        · next hpos =>
          cases h
          refine ⟨numberOf versions n.version, ?_, Nat.one_le_iff_ne_zero.2 hpos, ?_, rfl⟩
          · cases n.version with
            | latest => exact Or.inr ⟨rfl, by rw [hall]; rfl⟩
            | number k => exact Or.inl rfl
          · rw [hall]
            exact hdata

/-- The name that is served is read as that of the version with this number. -/
theorem Reached.parse_served {m : Memory} (h : Reached m) {n : VersionName} (hn : n.WellFormed)
    {number : Nat} {served : Served} (hserves : Serves m n number served) :
    VersionName.parse served.name = .ok (n.withVersion (.number number)) := by
  have hlt := (List.getElem?_eq_some_iff.1 hserves.data).1
  have hle := h.length_versions_le n.secretPath
  have hvalid : (Version.number number).Valid := ⟨hserves.pos, by omega⟩
  exact VersionName.parse_eq_ok_iff.2 ⟨hn.withVersion hvalid, hserves.name.symm⟩

/-- Such a backend always tells the number. -/
theorem Reached.concrete_of_answer {m : Memory} (h : Reached m) {s : String} {n : VersionName}
    {served : Served} (hs : VersionName.parse s = .ok n) (hserved : m.answer s = .ok served) :
    Mount.Fetch.Concrete served.name := by
  obtain ⟨number, hserves⟩ := serves_of_answer hs hserved
  have hname := h.parse_served (VersionName.wellFormed_of_parse hs) hserves
  have hvalid := (VersionName.wellFormed_of_parse hname).version
  exact ⟨_, number, hname, rfl, hvalid.1, hvalid.2⟩

theorem Reached.result_ne_unresolved {m : Memory} (h : Reached m) {s : String} {n : VersionName}
    (hs : VersionName.parse s = .ok n) (served : String) :
    Mount.Fetch.result (m.answer s) ≠ .error (.unresolved served) := by
  intro hresult
  obtain ⟨data, hanswer, hunresolved⟩ := Mount.Fetch.result_eq_unresolved_iff.1 hresult
  exact Mount.Fetch.concrete_iff.1 (h.concrete_of_answer hs hanswer) hunresolved

end Backend.Memory

/-! ## Requests -/

namespace Mount

variable {table : RoutingTable Handle} {request : Request} {limits : Limits} {turns : List Turn}

/-- Each access for an entry is answered by a backend in memory, in some state that operations lead
to. -/
def FromMemory (request : Request) (turns : List Turn) : Prop :=
  ∀ i e reply, request.entries[i]? = some e → .answer i reply ∈ turns →
    ∃ m : Memory, m.Reached ∧ reply.answer = m.answer e.resourceName

/-- A version in a response is the name that was served for its entry. -/
theorem exists_comes_of_mem {elapsed : Nat} {response : Response} {v : ObjectVersion}
    (h : (report request (Progress.perform table request limits turns) elapsed).result =
      .ok response) (hv : v ∈ response.objectVersions) :
    ∃ i e r, request.entries[i]? = some e ∧ r.version = v ∧
      Progress.Comes table request limits turns i e (.ok r) := by
  have hlen : (Progress.perform table request limits turns).outcomes.length =
      request.entries.length := by
    rw [Progress.length_outcomes, Progress.length_tasks]
  obtain ⟨-, rfl⟩ := (result_eq_ok_iff hlen).1 h
  obtain ⟨r, hr, rfl⟩ := List.mem_map.1 hv
  obtain ⟨o, ho, hok⟩ := List.mem_filterMap.1 hr
  obtain ⟨i, hi⟩ := List.mem_iff_getElem?.1 ho
  rw [Progress.getElem?_outcomes, Option.map_eq_some_iff] at hi
  obtain ⟨task, htask, rfl⟩ := hi
  obtain ⟨e, he⟩ := Progress.exists_entry htask
  cases task with
  | waiting => cases hok
  | fetching name => cases hok
  | finished o =>
    cases o with
    | error cause => cases hok
    | ok result =>
      cases hok
      exact ⟨i, e, r, he, rfl, Progress.comes he htask⟩

/-- By the clock, this is so when all handles are those of backends in memory. -/
theorem fromMemory_timedTurns {cancel : Option Nat}
    (h : ∀ l handle, table.serving? l = some handle →
      ∃ (id : Nat) (m : Memory), m.Reached ∧ handle = (Source.memory m).handle id) :
    FromMemory request ((timedTurns table request limits cancel).map Prod.snd) := by
  intro i e reply he hmem
  obtain ⟨name, handle, hroute, -, rfl⟩ := answer_mem_timedTurns he hmem
  obtain ⟨⟨-, asked, -, hasked⟩, -, htext⟩ := serves_of_route hroute
  obtain ⟨id, m, hm, rfl⟩ := h _ _ (RoutingTable.route_eq_ok_iff.1 hasked)
  exact ⟨m, hm, by rw [← htext]; rfl⟩

theorem result_eq_unresolved_of_resolve {e : Entry} {permissions : Mode} {answer : Answer}
    {served : String} (h : resolve e permissions answer = .error (.unresolved served)) :
    Fetch.result answer = .error (.unresolved served) := by
  unfold resolve at h
  cases hresult : Fetch.result answer with
  | error cause =>
    rw [hresult] at h
    cases h
    rfl
  | ok fetched =>
    rw [hresult] at h
    cases hpayload : Payload.transform fetched.data e.encoding e.extraction with
    | error fault => simp [hpayload, bind, Except.bind] at h
    | ok contents => simp [hpayload, bind, Except.bind, pure, Except.pure] at h

/-- With backends in memory, no entry fails for want of a number, and one that succeeds tells what
was served for it. -/
theorem Progress.Comes.of_fromMemory {i : Nat} {e : Entry} {o : Outcome}
    (ho : Comes table request limits turns i e o) (h : FromMemory request turns)
    (he : request.entries[i]? = some e) :
    (∀ served, o ≠ .error (.unresolved served)) ∧
    ∀ r, o = .ok r → ∃ m n number data, Memory.Reached m ∧
      VersionName.parse e.resourceName = .ok n ∧ m.Serves n number ⟨r.version.version, data⟩ := by
  constructor
  · rintro served rfl
    generalize hfailed : (.error (.unresolved served) : Outcome) = o at ho
    cases ho with
    | unrouted hroute =>
      cases hfailed
      cases misrouted_iff.2 hroute
    | cancelled => cases hfailed
    | expired => cases hfailed
    | answered hroute hreply =>
      obtain ⟨-, hname, -⟩ := serves_of_route hroute
      obtain ⟨m, hm, hanswer⟩ := h i e _ he hreply.mem
      have hresult := result_eq_unresolved_of_resolve hfailed.symm
      rw [hanswer] at hresult
      exact hm.result_ne_unresolved hname served hresult
  · rintro r rfl
    obtain ⟨n, hname⟩ : ∃ n, VersionName.parse e.resourceName = .ok n := by
      generalize hok : (.ok r : Outcome) = o at ho
      cases ho with
      | unrouted | cancelled | expired => cases hok
      | answered hroute => exact ⟨_, (serves_of_route hroute).2.1⟩
    obtain ⟨reply, served, contents, hreply, hserved, -, -, rfl⟩ := ho.ok
    obtain ⟨m, hm, hanswer⟩ := h i e _ he hreply.mem
    obtain ⟨number, hserves⟩ := Memory.serves_of_answer hname (hanswer.symm.trans hserved)
    exact ⟨m, n, number, served.data, hm, hname, hserves⟩

/-- **A version that is reported is a number.** A fetch passes on failures and what was served,
unless the version that was served is not told; no response has such a version. Of a backend in
memory the version is always told, and it is that of the bytes that are served, so no entry of a
request fails for this cause. -/
theorem versions_concrete :
    (∀ (accessor : String → Answer) (name : VersionName),
      (∀ failure, Fetch.result (accessor name.text) = .error (.backend failure) ↔
        accessor name.text = .error failure) ∧
      (∀ served, Fetch.result (accessor name.text) = .error (.unresolved served) ↔
        ∃ data, accessor name.text = .ok ⟨served, data⟩ ∧ Fetch.Unresolved served) ∧
      ∀ fetched, Fetch.result (accessor name.text) = .ok fetched ↔
        accessor name.text = .ok ⟨fetched.version, fetched.data⟩ ∧
          ¬ Fetch.Unresolved fetched.version) ∧
    (∀ elapsed response,
      (report request (Progress.perform table request limits turns) elapsed).result =
        .ok response → ∀ v ∈ response.objectVersions, Fetch.Concrete v.version) ∧
    (∀ (m : Memory) (s : String) (n : VersionName), m.Reached → VersionName.parse s = .ok n →
      (∀ served, Fetch.result (m.answer n.text) ≠ .error (.unresolved served)) ∧
      ∀ fetched, Fetch.result (m.answer n.text) = .ok fetched →
        ∃ number, m.Serves n number ⟨fetched.version, fetched.data⟩) ∧
    (FromMemory request turns → ∀ (i : Nat) (e : Entry), request.entries[i]? = some e →
      let outcomes := (Progress.perform table request limits turns).outcomes
      (∀ served, outcomes[i]? ≠ some (.error (.unresolved served))) ∧
      ∀ r, outcomes[i]? = some (.ok r) → ∃ m n number data, Memory.Reached m ∧
        VersionName.parse e.resourceName = .ok n ∧
        m.Serves n number ⟨r.version.version, data⟩) := by
  refine ⟨fun accessor name => ?_, ?_, ?_, ?_⟩
  · exact ⟨fun _ => Fetch.result_eq_backend_iff, fun _ => Fetch.result_eq_unresolved_iff,
      fun _ => Fetch.result_eq_ok_iff⟩
  · intro elapsed response hresponse v hv
    obtain ⟨i, e, r, he, rfl, hcomes⟩ := exists_comes_of_mem hresponse hv
    obtain ⟨reply, served, contents, -, -, hversion, -, rfl⟩ := hcomes.ok
    refine Fetch.concrete_iff.2 fun hunresolved => ?_
    rw [Fetch.concreteVersion?_eq_none_iff.2 hunresolved] at hversion
    cases hversion
  · intro m s n hm hs
    have htext := VersionName.text_of_parse hs
    rw [htext]
    refine ⟨fun served => hm.result_ne_unresolved hs served, fun fetched hfetched => ?_⟩
    exact Memory.serves_of_answer hs (Fetch.result_eq_ok_iff.1 hfetched).1
  · intro h i e he outcomes
    obtain ⟨task, htask⟩ : ∃ task,
        (Progress.perform table request limits turns).tasks[i]? = some task :=
      Progress.exists_task he
    have houtcome : outcomes[i]? = some task.outcome := by
      rw [Progress.getElem?_outcomes, htask]
      rfl
    rw [houtcome]
    cases task with
    | waiting => exact ⟨fun served hs => (by cases hs), fun r hr => (by cases hr)⟩
    | fetching name => exact ⟨fun served hs => (by cases hs), fun r hr => (by cases hr)⟩
    | finished o =>
      obtain ⟨hresolved, hserved⟩ := (Progress.comes he htask).of_fromMemory h he
      exact ⟨fun served hs => hresolved served (Option.some.inj hs),
        fun r hr => hserved r (Option.some.inj hr)⟩

/-- The newest version of a secret is served under its number. -/
theorem versions_concrete_newest :
    let m := ((Memory.new "memory" 0).addVersion "projects/p/secrets/s" [7]).1
    let asked := "projects/p/secrets/s/versions/latest"
    let served := "projects/p/secrets/s/versions/1"
    let n : VersionName := ⟨"p", none, "s", .latest⟩
    let table : RoutingTable Handle := .ofGeneral ((Source.memory m).handle 0)
    let request : Request := ⟨[.new asked "a"], 0, ⟨"", "", "", ""⟩, ""⟩
    let turns := (timedTurns table request .standard none).map Prod.snd
    let progress := Progress.perform table request .standard turns
    m.Reached ∧ VersionName.parse asked = .ok n ∧ FromMemory request turns ∧
      (report request progress 0).result = .ok ⟨[⟨asked, served⟩], [⟨"a", 0, [7]⟩]⟩ ∧
      Fetch.Concrete served ∧ (∃ number, m.Serves n number ⟨served, [7]⟩) ∧
      ∀ name, progress.outcomes[0]? ≠ some (.error (.unresolved name)) := by
  intro m asked served n table request turns progress
  have hm : m.Reached := .addVersion (.new "memory" 0) _ _ (by decide)
  have hname : VersionName.parse asked = .ok n := by decide
  have hmemory : FromMemory request turns := by
    refine fromMemory_timedTurns fun l handle hl => ⟨0, m, hm, ?_⟩
    cases l with
    | none =>
      cases hl
      rfl
    | some location => cases hl
  have hresult : (report request progress 0).result =
      .ok ⟨[⟨asked, served⟩], [⟨"a", 0, [7]⟩]⟩ := by decide +kernel
  have hfetched : Fetch.result (m.answer n.text) = .ok ⟨served, [7]⟩ := by decide +kernel
  obtain ⟨-, hresponse, hfetch, hentries⟩ :=
    @versions_concrete table request .standard turns
  exact ⟨hm, hname, hmemory, hresult,
    hresponse 0 _ hresult ⟨asked, served⟩ (List.mem_singleton_self _),
    (hfetch m asked n hm hname).2 _ hfetched, (hentries hmemory 0 _ rfl).1⟩

end Mount

end SecretMount
