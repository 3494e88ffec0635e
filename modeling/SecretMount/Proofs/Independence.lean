import SecretMount.Proofs.Clock
import SecretMount.Proofs.Stages

/-!
# Entries do not affect each other

What an entry comes to depends on the entry, its handle and the time that an access may take, and
not on the other entries, the number of slots or the order in which accesses end.

* `Mount.Settles` : what an entry comes to by itself, one case for each stage that may fail;
* `Mount.settle` : the outcome that this is (`Mount.settles_iff`);
* `Mount.Timely` : turns in which accesses end as their handles say and nothing is cancelled;
* `Mount.outcomes_of_timely` : after such turns every entry has come to what it comes to by itself.
-/

namespace SecretMount.Mount

open Backend

/-! ## One entry by itself -/

variable (table : RoutingTable Handle) (permissions : Mode) (timeout : Option Nat)

/-- An access that takes `latency` is not given up. -/
def InTime (latency : Nat) : Prop := ∀ limit, timeout = some limit → latency ≤ limit

/-- What an entry comes to by itself. Its stages follow each other, and the first that fails is the
cause. -/
inductive Settles (e : Entry) : Outcome → Prop
  | misrouted {cause : Cause} (hcause : Misrouted table e cause) : Settles e (.error cause)
  | timeout {handle : Handle} {limit : Nat} (hserves : Serves table e handle)
      (hlimit : timeout = some limit) (hlate : limit < handle.latency e.resourceName) :
      Settles e (.error (.timeout limit))
  | backend {handle : Handle} {failure : Backend.Failure} (hserves : Serves table e handle)
      (htime : InTime timeout (handle.latency e.resourceName))
      (hanswer : (handle.reply e.resourceName).answer = .error failure) :
      Settles e (.error (.backend failure))
  | unresolved {handle : Handle} {served : Served} (hserves : Serves table e handle)
      (htime : InTime timeout (handle.latency e.resourceName))
      (hanswer : (handle.reply e.resourceName).answer = .ok served)
      (hversion : Fetch.concreteVersion? served.name = none) :
      Settles e (.error (.unresolved served.name))
  | payload {handle : Handle} {served : Served} {version : Version} {fault : Payload.Fault}
      (hserves : Serves table e handle) (htime : InTime timeout (handle.latency e.resourceName))
      (hanswer : (handle.reply e.resourceName).answer = .ok served)
      (hversion : Fetch.concreteVersion? served.name = some version)
      (hpayload : Payload.transform served.data e.encoding e.extraction = .error fault) :
      Settles e (.error (.payload fault))
  | resolved {handle : Handle} {served : Served} {version : Version} {contents : Bytes}
      (hserves : Serves table e handle) (htime : InTime timeout (handle.latency e.resourceName))
      (hanswer : (handle.reply e.resourceName).answer = .ok served)
      (hversion : Fetch.concreteVersion? served.name = some version)
      (hpayload : Payload.transform served.data e.encoding e.extraction = .ok contents) :
      Settles e (.ok ⟨⟨e.resourceName, served.name⟩,
        ⟨e.outputPath, e.effectiveMode permissions, contents⟩⟩)

/-- The outcome of an entry by itself. -/
def settle (e : Entry) : Outcome :=
  match route table e with
  | .error cause => .error cause
  | .ok (name, handle) =>
    match timeout.filter (· < handle.latency name.text) with
    | some limit => .error (.timeout limit)
    | none => resolve e permissions (handle.reply name.text).answer

variable {table permissions timeout}

theorem filter_late_eq_none_iff {latency : Nat} :
    timeout.filter (· < latency) = none ↔ InTime timeout latency := by
  simp [InTime]

theorem filter_late_eq_some_iff {latency limit : Nat} :
    timeout.filter (· < latency) = some limit ↔ timeout = some limit ∧ limit < latency := by
  simp [Option.filter_eq_some_iff]

theorem settle_of_serves {e : Entry} {handle : Handle} (h : Serves table e handle) :
    settle table permissions timeout e =
      match timeout.filter (· < handle.latency e.resourceName) with
      | some limit => .error (.timeout limit)
      | none => resolve e permissions (handle.reply e.resourceName).answer := by
  obtain ⟨name, hroute, htext⟩ := route_of_serves h
  simp only [settle, hroute, htext]

theorem settle_in_time {e : Entry} {handle : Handle} (h : Serves table e handle)
    (htime : InTime timeout (handle.latency e.resourceName)) :
    settle table permissions timeout e =
      resolve e permissions (handle.reply e.resourceName).answer := by
  rw [settle_of_serves h, filter_late_eq_none_iff.2 htime]

theorem settle_eq {e : Entry} {o : Outcome} (h : Settles table permissions timeout e o) :
    settle table permissions timeout e = o := by
  cases h with
  | misrouted hcause => simp only [settle, misrouted_iff.1 hcause]
  | timeout hserves hlimit hlate =>
    rw [settle_of_serves hserves, filter_late_eq_some_iff.2 ⟨hlimit, hlate⟩]
  | backend hserves htime hanswer => simp [settle_in_time hserves htime, resolve_eq, hanswer]
  | unresolved hserves htime hanswer hversion =>
    simp [settle_in_time hserves htime, resolve_eq, hanswer, hversion]
  | payload hserves htime hanswer hversion hpayload
  | resolved hserves htime hanswer hversion hpayload =>
    simp [settle_in_time hserves htime, resolve_eq, hanswer, hversion, hpayload]

theorem settles_resolve {e : Entry} {handle : Handle} (hserves : Serves table e handle)
    (htime : InTime timeout (handle.latency e.resourceName)) :
    Settles table permissions timeout e
      (resolve e permissions (handle.reply e.resourceName).answer) := by
  rw [resolve_eq]
  split
  · next failure hanswer => exact .backend hserves htime hanswer
  · next served hanswer =>
    split
    · next hversion => exact .unresolved hserves htime hanswer hversion
    · next version hversion =>
      split
      · next fault hpayload => exact .payload hserves htime hanswer hversion hpayload
      · next contents hpayload => exact .resolved hserves htime hanswer hversion hpayload

theorem settles_settle (e : Entry) :
    Settles table permissions timeout e (settle table permissions timeout e) := by
  cases hroute : route table e with
  | error cause =>
    simp only [settle, hroute]
    exact .misrouted (misrouted_iff.2 hroute)
  | ok route =>
    obtain ⟨name, handle⟩ := route
    obtain ⟨hserves, -, -⟩ := serves_of_route hroute
    cases hlimit : timeout.filter (· < handle.latency e.resourceName) with
    | none =>
      have htime := filter_late_eq_none_iff.1 hlimit
      rw [settle_in_time hserves htime]
      exact settles_resolve hserves htime
    | some limit =>
      rw [settle_of_serves hserves, hlimit]
      obtain ⟨htimeout, hlate⟩ := filter_late_eq_some_iff.1 hlimit
      exact .timeout hserves htimeout hlate

/-- An entry comes to exactly one outcome by itself. -/
theorem settles_iff {e : Entry} {o : Outcome} :
    Settles table permissions timeout e o ↔ o = settle table permissions timeout e :=
  ⟨fun h => (settle_eq h).symm, fun h => h ▸ settles_settle e⟩

/-! ## Many entries -/

variable (table) (request : Request) (limits : Limits)

/-- A turn that does not cancel the request and, if it ends an access, ends it as the handle and the
limits say. -/
def Turn.Timely : Turn → Prop
  | start _ => True
  | answer index reply => ∀ e name handle, request.entries[index]? = some e →
      route table e = .ok (name, handle) →
      InTime limits.timeout (handle.latency name.text) ∧ reply = handle.reply name.text
  | expire index => ∀ e name handle, request.entries[index]? = some e →
      route table e = .ok (name, handle) → ¬ InTime limits.timeout (handle.latency name.text)
  | cancel => False

def Timely (turns : List Turn) : Prop := ∀ t ∈ turns, t.Timely table request limits

variable {table request limits}

theorem allows_iff {latency : Nat} :
    limits.allows latency = true ↔ InTime limits.timeout latency := by
  unfold Limits.allows InTime
  cases limits.timeout <;> simp

/-- **Whatever the order of timely turns, an entry comes to what it comes to by itself.** -/
theorem eq_settle_of_comes {turns : List Turn} {i : Nat} {e : Entry} {o : Outcome}
    (hturns : Timely table request limits turns) (he : request.entries[i]? = some e)
    (h : Progress.Comes table request limits turns i e o) :
    o = settle table request.permissions limits.timeout e := by
  cases h with
  | unrouted hroute => simp only [settle, hroute]
  | cancelled _ hcancel => exact absurd (hturns _ hcancel) id
  | answered hroute hreply =>
    obtain ⟨htime, rfl⟩ := hturns _ hreply.mem e _ _ he hroute
    simp only [settle, hroute, filter_late_eq_none_iff.2 htime]
  | @expired name handle limit hroute hlimit hexpire =>
    have hlate := hturns _ hexpire e _ _ he hroute
    simp only [InTime, hlimit, Option.some.injEq, forall_eq', Nat.not_le] at hlate
    simp only [settle, hroute, filter_late_eq_some_iff.2 ⟨hlimit, hlate⟩]

theorem outcomes_of_timely {turns : List Turn} (hturns : Timely table request limits turns)
    (hdone : (Progress.perform table request limits turns).Done) :
    (Progress.perform table request limits turns).outcomes =
      request.entries.map (settle table request.permissions limits.timeout) := by
  apply List.ext_getElem?
  intro i
  rw [Progress.getElem?_outcomes, List.getElem?_map]
  cases he : request.entries[i]? with
  | none =>
    rw [List.getElem?_eq_none]
    · rfl
    · rw [Progress.length_tasks]
      exact List.getElem?_eq_none_iff.1 he
  | some e =>
    obtain ⟨o, ho⟩ := Progress.done_iff.1 hdone i e he
    rw [ho, Option.map_some, Option.map_some, ← eq_settle_of_comes hturns he (Progress.comes he ho)]
    rfl

variable (table request limits)

/-- The turns of the clock are timely. -/
theorem timely_timedTurns :
    Timely table request limits ((timedTurns table request limits none).map Prod.snd) := by
  intro t ht
  obtain ⟨⟨time, u⟩, hu, rfl⟩ := List.mem_map.1 ht
  rcases mem_timedTurns.1 hu with ⟨c, hc, -⟩ | ⟨i, e, s, he, -, hmem⟩
  · cases hc
  · rcases mem_entryTurns.1 hmem with heq | ⟨name, handle, hroute, heq⟩
    · cases heq
      exact True.intro
    · cases heq
      simp only [Limits.lastTurn]
      split
      · next hallows =>
        intro d asked other hd hother
        cases he.symm.trans hd
        cases hroute.symm.trans hother
        exact ⟨allows_iff.1 hallows, rfl⟩
      · next hallows =>
        intro d asked other hd hother
        cases he.symm.trans hd
        cases hroute.symm.trans hother
        exact fun htime => hallows (allows_iff.2 htime)

theorem outcomes_clocked :
    (clocked table request limits none).outcomes =
      request.entries.map (settle table request.permissions limits.timeout) :=
  outcomes_of_timely (timely_timedTurns table request limits)
    (clocked_done table request limits none)

theorem result_run :
    (run table request limits none).result =
      result request.entries
        (request.entries.map (settle table request.permissions limits.timeout)) := by
  rw [← outcomes_clocked]
  rfl

/-- The request for one entry only. -/
def Request.only (e : Entry) : Request := { request with entries := [e] }

/-- **Each entry comes to what it comes to by itself.** A request that is not cancelled gives an
entry the outcome of a request for this entry only, which is that of the first of its stages to
fail. So neither the number of slots nor the order in which accesses end changes its result. -/
theorem run_independent :
    (∀ (i : Nat) (e : Entry), request.entries[i]? = some e → ∃ o,
      (clocked table request limits none).outcomes[i]? = some o ∧
      (clocked table (request.only e) limits none).outcomes = [o] ∧
      ∀ o', Settles table request.permissions limits.timeout e o' ↔ o' = o) ∧
    (∀ count, (run table request { limits with maxConcurrent := count } none).result =
      (run table request limits none).result) ∧
    ∀ turns elapsed, Timely table request limits turns →
      (Progress.perform table request limits turns).Done →
      (report request (Progress.perform table request limits turns) elapsed).result =
        (run table request limits none).result := by
  refine ⟨?_, ?_, ?_⟩
  · intro i e he
    refine ⟨settle table request.permissions limits.timeout e, ?_, ?_, fun o' => settles_iff⟩
    · rw [outcomes_clocked, List.getElem?_map, he]
      rfl
    · rw [outcomes_clocked]
      rfl
  · intro count
    rw [result_run, result_run]
  · intro turns elapsed hturns hdone
    rw [result_run, ← outcomes_of_timely hturns hdone]
    rfl

/-- The access for the second entry ends before that for the first. -/
theorem run_independent_out_of_order :
    let name := "projects/p/secrets/s/versions/1"
    let reply : Reply := ⟨.ok ⟨name, []⟩, []⟩
    let table : RoutingTable Handle :=
      .ofGeneral ⟨0, globalEndpoint, fun _ => 0, fun _ => reply⟩
    let request : Request := ⟨[.new name "a", .new name "b"], 0, ⟨"", "", "", ""⟩, ""⟩
    let turns : List Turn := [.start 0, .start 1, .answer 1 reply, .answer 0 reply]
    let progress := Progress.perform table request .standard turns
    Timely table request .standard turns ∧ progress.Done ∧
      (report request progress 0).result = (run table request ⟨1, none⟩ none).result := by
  intro name reply table request turns progress
  have htimely : Timely table request .standard turns := by
    have hreply : ∀ e name handle, route table e = .ok (name, handle) →
        InTime none (handle.latency name.text) ∧ reply = handle.reply name.text := by
      intro e name handle hroute
      obtain ⟨⟨-, asked, -, hasked⟩, -, -⟩ := serves_of_route hroute
      cases hlocation : asked.location with
      | none =>
        rw [RoutingTable.route, hlocation] at hasked
        cases hasked
        exact ⟨by simp [InTime], rfl⟩
      | some location =>
        rw [RoutingTable.route, hlocation] at hasked
        cases hasked
    intro t ht
    simp only [turns, List.mem_cons, List.not_mem_nil, or_false] at ht
    rcases ht with rfl | rfl | rfl | rfl
    · exact True.intro
    · exact True.intro
    · exact fun e name handle _ => hreply e name handle
    · exact fun e name handle _ => hreply e name handle
  have hdone : progress.Done := by decide
  obtain ⟨-, hslots, horder⟩ := run_independent table request .standard
  exact ⟨htimely, hdone, (horder turns 0 htimely hdone).trans (hslots 1).symm⟩

end SecretMount.Mount
