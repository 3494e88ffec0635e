import SecretMount.Proofs.Collection
import SecretMount.Proofs.Confinement

/-!
# Accepted requests and their runs

What a request is checked for when it is read is what its run relies on.

* `Entry.Gives`, `Entry.keyFor` : the place and the keys that an entry is written with;
* `Entry.Sound.gives`, `Entry.Sound.extraction_eq_some_iff` : in a sound entry there is one place
  and at most one key, so that neither of two is passed over;
* `Progress.outcome_ne_noDestination` : an entry with a place does not fail for want of one;
* `Mount.accepted_as_written` : both for the entries of an accepted request, in each of its runs.
-/

namespace SecretMount.Mount

open Backend

/-! ## Entries -/

namespace Entry

/-- The place is given by one of two fields, and the other is not set. -/
def Gives (e : Entry) (place : String) : Prop :=
  e.fileName = some place ∧ e.path = none ∨ e.path = some place ∧ e.fileName = none

/-- The key that is given for payloads of a format. -/
def keyFor (e : Entry) : Payload.Format → Option String
  | .json => e.jsonKey
  | .yaml => e.yamlKey

theorem Sound.gives {e : Entry} (h : e.Sound) : e.Gives e.outputPath ∧ e.outputPath ≠ "" := by
  rcases h.placed with ⟨name, hname, hpath, hne, -⟩ | ⟨path, hpath, hname, hne, -⟩
  · have hplace : e.outputPath = name := by simp [outputPath, hname, hpath]
    rw [hplace]
    exact ⟨Or.inl ⟨hname, hpath⟩, hne⟩
  · have hplace : e.outputPath = path := by simp [outputPath, hpath]
    rw [hplace]
    exact ⟨Or.inr ⟨hpath, hname⟩, hne⟩

theorem Sound.extraction_eq_some_iff {e : Entry} (h : e.Sound) {format : Payload.Format}
    {key : String} : e.extraction = some ⟨format, key⟩ ↔ e.keyFor format = some key := by
  unfold extraction keyFor
  rcases h.oneKey with hjson | hyaml
  · rw [hjson]
    cases e.yamlKey <;> cases format <;> simp
  · rw [hyaml]
    cases e.jsonKey <;> cases format <;> simp

end Entry

/-! ## Runs -/

variable {table : RoutingTable Handle} {request : Request} {limits : Limits} {turns : List Turn}

theorem resolve_ne_noDestination {e : Entry} {permissions : Mode} {answer : Answer} :
    resolve e permissions answer ≠ .error .noDestination := by
  rw [resolve_eq]
  repeat' split
  all_goals simp

namespace Progress

/-- An entry with a place does not fail for want of one, finished or not. -/
theorem outcome_ne_noDestination {i : Nat} {e : Entry} {o : Outcome}
    (he : request.entries[i]? = some e) (hplace : e.outputPath ≠ "")
    (ho : (perform table request limits turns).outcomes[i]? = some o) :
    o ≠ .error .noDestination := by
  rw [getElem?_outcomes, Option.map_eq_some_iff] at ho
  obtain ⟨task, htask, rfl⟩ := ho
  cases stands turns he htask with
  | waiting | fetching => simp [Task.outcome]
  | finished hcomes =>
    cases hcomes with
    | cancelled | expired => simp [Task.outcome]
    | answered => exact resolve_ne_noDestination
    | unrouted hroute =>
      intro hfailed
      cases hfailed
      cases misrouted_iff.2 hroute with
      | noDestination hempty => exact hplace hempty

/-- The file of an entry that has succeeded is at its place. -/
theorem path_of_outcome {i : Nat} {e : Entry} {r : Resolved} (he : request.entries[i]? = some e)
    (ho : (perform table request limits turns).outcomes[i]? = some (.ok r)) :
    r.file.path = e.outputPath := by
  rw [getElem?_outcomes, Option.map_eq_some_iff] at ho
  obtain ⟨task, htask, hok⟩ := ho
  cases task with
  | waiting | fetching => cases hok
  | finished o =>
    obtain rfl : o = .ok r := hok
    obtain ⟨reply, served, contents, -, -, -, -, rfl⟩ := (comes he htask).ok
    rfl

end Progress

/-- **An accepted request means what it says.** Whatever the handles and limits are, and in whatever
order its entries start, are answered, take too long or are cancelled, no entry of an accepted
request fails for want of a destination. In a response each file is at the place that its entry
gives. Each key that an entry gives is the one that is extracted. -/
theorem accepted_as_written {raw : RawRequest} (h : raw.parse = .ok request)
    (table : RoutingTable Handle) (limits : Limits) (turns : List Turn) (elapsed : Nat) :
    let result := (report request (Progress.perform table request limits turns) elapsed).result
    (∀ failure, result = .error failure → ∀ f ∈ failure.failures, f.cause ≠ .noDestination) ∧
    (∀ response, result = .ok response → response.files.length = request.entries.length ∧
      ∀ (i : Nat) (e : Entry) (file : File), request.entries[i]? = some e →
        response.files[i]? = some file → file.path ≠ "" ∧ e.Gives file.path) ∧
    ∀ e ∈ request.entries, ∀ format key,
      e.extraction = some ⟨format, key⟩ ↔ e.keyFor format = some key := by
  intro result
  have hsound : ∀ e ∈ request.entries, e.Sound := fun e he =>
    Entry.Accepted.sound (Or.inr ⟨raw, request, h, he⟩)
  refine ⟨fun failure hfailure f hf => ?_, fun response hresponse => ?_,
    fun e he format key => (hsound e he).extraction_eq_some_iff⟩
  · obtain ⟨-, rfl⟩ := result_eq_error_iff.1 hfailure
    obtain ⟨e, he, ho, -⟩ := mem_failures.1 hf
    have hplace := (hsound e (List.mem_of_getElem? he)).gives.2
    intro hcause
    exact Progress.outcome_ne_noDestination he hplace ho (congrArg Except.error hcause)
  · have hlen : (Progress.perform table request limits turns).outcomes.length =
        request.entries.length := by
      rw [Progress.length_outcomes, Progress.length_tasks]
    obtain ⟨hok, rfl⟩ := (result_eq_ok_iff hlen).1 hresponse
    refine ⟨(length_respond hok).2.trans hlen, fun i e file he hfile => ?_⟩
    obtain ⟨task, htask⟩ : ∃ t, (Progress.perform table request limits turns).tasks[i]? = some t :=
      Progress.exists_task he
    have ho : (Progress.perform table request limits turns).outcomes[i]? = some task.outcome := by
      rw [Progress.getElem?_outcomes, htask]
      rfl
    obtain ⟨r, hr⟩ := hok _ (List.mem_of_getElem? ho)
    rw [hr] at ho
    obtain ⟨hgives, hne⟩ := (hsound e (List.mem_of_getElem? he)).gives
    rw [(getElem?_respond hok ho).2] at hfile
    cases hfile
    rw [Progress.path_of_outcome he ho]
    exact ⟨hne, hgives⟩

/-- One entry gives a path and a key. It is mounted, and when it is cancelled it fails for that. -/
theorem accepted_as_written_path :
    let text := "\x7b\"secrets\":\"- resourceName: projects/p/secrets/s/versions/1\\n" ++
      "  path: conf/a\\n  extractJSONKey: k\\n\"\x7d"
    let raw : RawRequest := ⟨text, "/mnt", "420"⟩
    let name := "projects/p/secrets/s/versions/1"
    let e : Entry := ⟨name, none, some "conf/a", none, none, some "k", none⟩
    let request : Request := ⟨[e], 420, ⟨"", "", "", ""⟩, "/mnt"⟩
    let reply : Reply := ⟨.ok ⟨name, Text.encode "\x7b\"k\":7\x7d"⟩, []⟩
    let table : RoutingTable Handle := .ofGeneral ⟨0, globalEndpoint, fun _ => 0, fun _ => reply⟩
    let result (turns : List Turn) :=
      (report request (Progress.perform table request .standard turns) 0).result
    raw.parse = .ok request ∧ e.extraction = some ⟨.json, "k"⟩ ∧
      (∃ response file, result [.start 0, .answer 0 reply] = .ok response ∧
        response.files[0]? = some file ∧ e.Gives file.path) ∧
      ∃ failure, result [.start 0, .cancel] = .error failure ∧
        ∀ f ∈ failure.failures, f.cause ≠ .noDestination := by
  intro text raw name e request reply table result
  have hparse : raw.parse = .ok request := by decide +kernel
  have hmounted : (result [.start 0, .answer 0 reply]).isOk = true := by decide +kernel
  have hcancelled : (result [.start 0, .cancel]).isOk = false := by decide +kernel
  obtain ⟨-, hfiles, hkeys⟩ :=
    accepted_as_written hparse table .standard [.start 0, .answer 0 reply] 0
  obtain ⟨hfailure, -, -⟩ := accepted_as_written hparse table .standard [.start 0, .cancel] 0
  refine ⟨hparse, (hkeys e List.mem_cons_self .json "k").2 rfl, ?_, ?_⟩
  · cases hresult : result [.start 0, .answer 0 reply] with
    | error failure =>
      rw [hresult] at hmounted
      cases hmounted
    | ok response =>
      obtain ⟨hlength, hgives⟩ := hfiles response hresult
      have hfirst : 0 < response.files.length := by rw [hlength]; decide
      have hfile := List.getElem?_eq_getElem hfirst
      exact ⟨response, _, rfl, hfile, (hgives 0 e _ rfl hfile).2⟩
  · cases hresult : result [.start 0, .cancel] with
    | error failure => exact ⟨failure, rfl, hfailure failure hresult⟩
    | ok response =>
      rw [hresult] at hcancelled
      cases hcancelled

end SecretMount.Mount
