import SecretMount.Proofs.Origin
import SecretMount.Proofs.Stages

/-!
# The result of a request

All entries are in the response, or none is and the failure lists those that failed.

* `Failure.sort_eq_self` : failures that come in the order of their entries stay in it;
* `Mount.mem_failures`, `Mount.pairwise_failures` : the failures are those of the failed entries,
  each once and in order;
* `Mount.result_eq_ok_iff`, `Mount.result_eq_error_iff` : which result outcomes lead to;
* `Mount.getElem?_respond` : each place of a response holds what its entry came to.
-/

namespace SecretMount.Mount

open Backend

/-! ## Failures in order -/

namespace Failure

theorem insert_of_le {f : EntryFailure} : ∀ {l : List EntryFailure},
    (∀ g ∈ l, g.index ≤ f.index) → insert f l = l ++ [f]
  | [], _ => rfl
  | g :: r, h => by
    have hg := h g List.mem_cons_self
    rw [insert, if_neg (Nat.not_lt.2 hg), insert_of_le fun u hu => h u (List.mem_cons_of_mem _ hu),
      List.cons_append]

theorem foldl_insert_of_pairwise (l sorted : List EntryFailure)
    (h : (sorted ++ l).Pairwise fun f g => f.index < g.index) :
    l.foldl (fun sorted f => insert f sorted) sorted = sorted ++ l := by
  induction l generalizing sorted with
  | nil => simp
  | cons f r ih =>
    have hlast : ∀ g ∈ sorted, g.index ≤ f.index := fun g hg =>
      Nat.le_of_lt ((List.pairwise_append.1 h).2.2 g hg f List.mem_cons_self)
    rw [List.foldl_cons, insert_of_le hlast, ih, List.append_assoc, List.singleton_append]
    rwa [List.append_assoc, List.singleton_append]

theorem sort_eq_self {l : List EntryFailure} (h : l.Pairwise fun f g => f.index < g.index) :
    sort l = l :=
  foldl_insert_of_pairwise l [] h

end Failure

/-! ## The failures of a request -/

theorem failure?_eq_some_iff {index : Nat} {e : Entry} {o : Outcome} {f : EntryFailure} :
    failure? index e o = some f ↔
      f.index = index ∧ f.resourceName = e.resourceName ∧ o = .error f.cause := by
  obtain ⟨i, name, cause⟩ := f
  cases o with
  | ok r => simp [failure?]
  | error c => simp [failure?, eq_comm]

theorem exists_map_ok {outcomes : List Outcome} (h : ∀ o ∈ outcomes, ∃ r, o = .ok r) :
    ∃ resolved : List Resolved, outcomes = resolved.map .ok := by
  induction outcomes with
  | nil => exact ⟨[], rfl⟩
  | cons o l ih =>
    obtain ⟨r, rfl⟩ := h o List.mem_cons_self
    obtain ⟨resolved, rfl⟩ := ih fun o ho => h o (List.mem_cons_of_mem _ ho)
    exact ⟨r :: resolved, rfl⟩

variable (entries : List Entry) (outcomes : List Outcome)

theorem pairwise_failures : (failures entries outcomes).Pairwise fun f g => f.index < g.index := by
  refine List.pairwise_filterMap.2 (List.pairwise_iff_getElem.2 ?_)
  intro i j hi hj hij f hf g hg
  rw [failure?_eq_some_iff, List.getElem_zipIdx] at hf hg
  have hfi := hf.1
  have hgj := hg.1
  simp only at hfi hgj
  omega

variable {entries outcomes}

theorem mem_failures {f : EntryFailure} :
    f ∈ failures entries outcomes ↔ ∃ e, entries[f.index]? = some e ∧
      outcomes[f.index]? = some (.error f.cause) ∧ f.resourceName = e.resourceName := by
  simp only [failures, List.mem_filterMap, Prod.exists, List.mem_zipIdx_iff_getElem?,
    List.getElem?_zip_eq_some, failure?_eq_some_iff]
  constructor
  · rintro ⟨e, o, i, ⟨he, ho⟩, rfl, hname, rfl⟩
    exact ⟨e, he, ho, hname⟩
  · rintro ⟨e, he, ho, hname⟩
    exact ⟨e, _, f.index, ⟨he, ho⟩, rfl, hname, rfl⟩

/-- Nothing failed when all outcomes are successes. -/
theorem failures_eq_nil_iff (hlen : outcomes.length = entries.length) :
    failures entries outcomes = [] ↔ ∀ o ∈ outcomes, ∃ r, o = .ok r := by
  constructor
  · intro h o ho
    cases o with
    | ok r => exact ⟨r, rfl⟩
    | error cause =>
      obtain ⟨i, hi⟩ := List.mem_iff_getElem?.1 ho
      have hlt := (List.getElem?_eq_some_iff.1 hi).1
      obtain ⟨e, he⟩ : ∃ e, entries[i]? = some e := ⟨_, List.getElem?_eq_getElem (by omega)⟩
      have hmem : ⟨i, e.resourceName, cause⟩ ∈ failures entries outcomes :=
        mem_failures.2 ⟨e, he, hi, rfl⟩
      rw [h] at hmem
      cases hmem
  · intro h
    refine List.eq_nil_iff_forall_not_mem.2 fun f hf => ?_
    obtain ⟨e, -, ho, -⟩ := mem_failures.1 hf
    obtain ⟨r, hr⟩ := h _ (List.mem_of_getElem? ho)
    cases hr

/-! ## Results -/

theorem result_eq :
    result entries outcomes =
      if failures entries outcomes = [] then .ok (respond outcomes)
      else .error ⟨failures entries outcomes, entries.length⟩ := by
  unfold result Failure.ofList?
  rw [Failure.sort_eq_self (pairwise_failures entries outcomes)]
  by_cases h : failures entries outcomes = []
  · rw [if_pos h, h]
    rfl
  · rw [if_neg h, if_neg (mt List.isEmpty_iff.1 h)]

theorem result_eq_ok_iff (hlen : outcomes.length = entries.length) {response : Response} :
    result entries outcomes = .ok response ↔
      (∀ o ∈ outcomes, ∃ r, o = .ok r) ∧ respond outcomes = response := by
  rw [result_eq, ← failures_eq_nil_iff hlen]
  split
  · next h => simp [h]
  · next h => simp [h]

theorem result_eq_error_iff {failure : Failure} :
    result entries outcomes = .error failure ↔
      failures entries outcomes ≠ [] ∧
        failure = ⟨failures entries outcomes, entries.length⟩ := by
  rw [result_eq]
  split
  · next h => simp [h]
  · next h => simp [h, eq_comm]

theorem respond_map_ok (resolved : List Resolved) :
    respond (resolved.map .ok) = ⟨resolved.map Resolved.version, resolved.map Resolved.file⟩ := by
  have hresolved : (resolved.map .ok : List Outcome).filterMap Except.toOption = resolved := by
    rw [List.filterMap_map]
    exact List.filterMap_some
  simp only [respond, hresolved]

theorem length_respond (h : ∀ o ∈ outcomes, ∃ r, o = .ok r) :
    (respond outcomes).objectVersions.length = outcomes.length ∧
      (respond outcomes).files.length = outcomes.length := by
  obtain ⟨resolved, rfl⟩ := exists_map_ok h
  simp [respond_map_ok]

/-- Each place of a response holds what its entry came to. -/
theorem getElem?_respond (h : ∀ o ∈ outcomes, ∃ r, o = .ok r) {i : Nat} {r : Resolved}
    (hr : outcomes[i]? = some (.ok r)) :
    (respond outcomes).objectVersions[i]? = some r.version ∧
      (respond outcomes).files[i]? = some r.file := by
  obtain ⟨resolved, rfl⟩ := exists_map_ok h
  rw [List.getElem?_map, Option.map_eq_some_iff] at hr
  obtain ⟨a, ha, hok⟩ := hr
  cases hok
  simp [respond_map_ok, ha]

/-! ## Runs -/

variable {table : RoutingTable Handle} {request : Request} {limits : Limits} {turns : List Turn}

/-- A success comes from the reply to the access for its entry. -/
theorem Progress.Comes.ok {i : Nat} {e : Entry} {r : Resolved}
    (h : Comes table request limits turns i e (.ok r)) :
    ∃ reply served contents, Answered table request limits turns i reply ∧
      reply.answer = .ok served ∧ (Fetch.concreteVersion? served.name).isSome = true ∧
      Payload.transform served.data e.encoding e.extraction = .ok contents ∧
      r = ⟨⟨e.resourceName, served.name⟩,
        ⟨e.outputPath, e.mode.getD request.permissions, contents⟩⟩ := by
  generalize ho : Except.ok r = o at h
  cases h with
  | unrouted | cancelled | expired => cases ho
  | @answered name handle reply _ hreply =>
    rw [resolve_eq] at ho
    split at ho
    · cases ho
    · next served hanswer =>
      split at ho
      · cases ho
      · next version hversion =>
        split at ho
        · cases ho
        · next contents hcontents =>
          cases ho
          exact ⟨reply, served, contents, hreply, hanswer, by simp [hversion], hcontents, rfl⟩

/-- **All or nothing.** In whatever order the turns come and whatever the backends reply, a request
that is answered has one outcome for each entry. If all are successes, the response holds each at
the place of its entry. If not, there is no response, and the failure lists exactly those that are
not. A request that is run by the clock is answered (`clocked_done`). -/
theorem all_or_nothing (hdone : (Progress.perform table request limits turns).Done)
    (elapsed : Nat) :
    let outcomes := (Progress.perform table request limits turns).outcomes
    let result := (report request (Progress.perform table request limits turns) elapsed).result
    outcomes.length = request.entries.length ∧
    ((∃ response, result = .ok response) ↔ ∀ o ∈ outcomes, ∃ r, o = .ok r) ∧
    (∀ response, result = .ok response →
      response.objectVersions.length = request.entries.length ∧
      response.files.length = request.entries.length ∧
      ∀ (i : Nat) (e : Entry), request.entries[i]? = some e → ∃ reply served contents,
        Progress.Answered table request limits turns i reply ∧ reply.answer = .ok served ∧
        (Fetch.concreteVersion? served.name).isSome = true ∧
        Payload.transform served.data e.encoding e.extraction = .ok contents ∧
        response.objectVersions[i]? = some ⟨e.resourceName, served.name⟩ ∧
        response.files[i]? =
          some ⟨e.outputPath, e.mode.getD request.permissions, contents⟩) ∧
    ∀ failure, result = .error failure →
      failure.total = request.entries.length ∧ failure.failures ≠ [] ∧
      (failure.failures.Pairwise fun f g => f.index < g.index) ∧
      ∀ f, f ∈ failure.failures ↔ ∃ e, request.entries[f.index]? = some e ∧
        outcomes[f.index]? = some (.error f.cause) ∧ f.resourceName = e.resourceName := by
  intro outcomes result
  have hlen : outcomes.length = request.entries.length := by
    rw [Progress.length_outcomes, Progress.length_tasks]
  refine ⟨hlen, ?_, ?_, ?_⟩
  · constructor
    · rintro ⟨response, hresponse⟩
      exact ((result_eq_ok_iff hlen).1 hresponse).1
    · exact fun h => ⟨respond outcomes, (result_eq_ok_iff hlen).2 ⟨h, rfl⟩⟩
  · intro response hresponse
    obtain ⟨hok, rfl⟩ := (result_eq_ok_iff hlen).1 hresponse
    obtain ⟨hversions, hfiles⟩ := length_respond hok
    refine ⟨hversions.trans hlen, hfiles.trans hlen, fun i e he => ?_⟩
    obtain ⟨o, ho⟩ := Progress.done_iff.1 hdone i e he
    have hi : outcomes[i]? = some o := by
      rw [Progress.getElem?_outcomes, ho]
      rfl
    obtain ⟨r, rfl⟩ := hok o (List.mem_of_getElem? hi)
    obtain ⟨reply, served, contents, hreply, hanswer, hversion, hcontents, rfl⟩ :=
      (Progress.comes he ho).ok
    exact ⟨reply, served, contents, hreply, hanswer, hversion, hcontents, getElem?_respond hok hi⟩
  · intro failure hfailure
    obtain ⟨hne, rfl⟩ := result_eq_error_iff.1 hfailure
    exact ⟨rfl, hne, pairwise_failures _ _, fun f => mem_failures⟩

/-- The first entry succeeds, but the second has no name, so that there is no response. -/
theorem all_or_nothing_one_failed :
    let name := "projects/p/secrets/s/versions/1"
    let table : RoutingTable Handle :=
      .ofGeneral ⟨0, globalEndpoint, fun _ => 0, fun name => ⟨.ok ⟨name, []⟩, []⟩⟩
    let request : Request := ⟨[.new name "a", .new "s" "b"], 0, ⟨"", "", "", ""⟩, ""⟩
    let turns : List Turn := [.start 0, .start 1, .answer 0 ⟨.ok ⟨name, []⟩, []⟩]
    let progress := Progress.perform table request .standard turns
    progress.Done ∧ progress.outcomes.map Except.isOk = [true, false] ∧
      ¬ ∃ response, (report request progress 0).result = .ok response := by
  intro name table request turns progress
  have hdone : progress.Done := by decide
  have hmixed : progress.outcomes.map Except.isOk = [true, false] := by decide
  refine ⟨hdone, hmixed, fun hresponse => ?_⟩
  have hfalse : false ∈ progress.outcomes.map Except.isOk := by simp [hmixed]
  obtain ⟨o, ho, hfailed⟩ := List.mem_map.1 hfalse
  obtain ⟨r, rfl⟩ := (all_or_nothing hdone 0).2.1.1 hresponse o ho
  cases hfailed

end SecretMount.Mount
