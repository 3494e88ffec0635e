import Mathlib.Data.List.Induction
import SecretMount.Proofs.Access
import SecretMount.Proofs.Grammar

/-!
# The history of a backend in memory

All that a backend in memory returns can be read off the list of what was done with it.

* `Memory.Operation`, `Memory.replay` : what can be done, and the backend that a history leads to;
* `Memory.added`, `Memory.lastFailure?`, `Memory.accesses` : what a history says of the versions of
  a secret, of the failure for a name and of the number of accesses;
* `Memory.Recorded` : the invariant. A backend holds what its history says, one operation after the
  other (`Memory.Recorded.concat`, `Memory.recorded`);
* `Memory.Tells` : the answer to a name that a history leads to, with one case for each reason;
* `Memory.history_tells_results` : numbers, answers and counts are what the history says.
-/

namespace SecretMount.Backend.Memory

/-! ## Histories -/

/-- What can be done with a backend in memory. -/
inductive Operation where
  | addVersion (path : String) (data : Bytes)
  | failWith (name : String) (failure : Failure)
  | access (name : String)

namespace Operation

/-- The version that is added to the secret at `path`. -/
def adds? (path : String) : Operation → Option Bytes
  | addVersion p data => if p = path then some data else none
  | _ => none

/-- The failure that is set for `name`. -/
def sets? (name : String) : Operation → Option Failure
  | failWith n failure => if n = name then some failure else none
  | _ => none

def isAccess : Operation → Bool
  | access _ => true
  | _ => false

end Operation

/-- What is left of a backend after an operation, whatever that returns. -/
def perform (m : Memory) : Operation → Memory
  | .addVersion path data => (m.addVersion path data).1
  | .failWith name failure => m.failWith name failure
  | .access name => (m.access name).1

/-- A new backend with which all of `history` was done. -/
def replay (endpoint : String) (latency : Nat) (history : List Operation) : Memory :=
  history.foldl perform (new endpoint latency)

/-- The versions that were added to a secret, in order. -/
def added (history : List Operation) (path : String) : List Bytes :=
  history.filterMap (Operation.adds? path)

/-- The failure that was set last for a name. -/
def lastFailure? (history : List Operation) (name : String) : Option Failure :=
  (history.filterMap (Operation.sets? name)).getLast?

def accesses (history : List Operation) : Nat := history.countP Operation.isAccess

/-! ## The invariant -/

/-- `m` holds what `history` says. No secret is there without a version. -/
structure Recorded (history : List Operation) (m : Memory) : Prop where
  secrets : ∀ path, m.secrets.get? path =
    if added history path = [] then none else some (added history path)
  failures : ∀ name, m.failures.get? name = lastFailure? history name
  calls : m.calls = accesses history

theorem added_concat (history : List Operation) (op : Operation) (path : String) :
    added (history ++ [op]) path = added history path ++ (op.adds? path).toList := by
  rw [added, List.filterMap_append]
  cases hop : op.adds? path <;> simp [added, hop]

theorem lastFailure?_concat (history : List Operation) (op : Operation) (name : String) :
    lastFailure? (history ++ [op]) name = (op.sets? name).or (lastFailure? history name) := by
  rw [lastFailure?, List.filterMap_append]
  cases hop : op.sets? name <;> simp [lastFailure?, hop]

theorem accesses_concat (history : List Operation) (op : Operation) :
    accesses (history ++ [op]) = accesses history + if op.isAccess then 1 else 0 := by
  rw [accesses, List.countP_append, List.countP_singleton]
  rfl

variable {history : List Operation} {m : Memory}

theorem recorded_new (endpoint : String) (latency : Nat) :
    Recorded [] (new endpoint latency) := ⟨fun _ => rfl, fun _ => rfl, rfl⟩

theorem Recorded.versions (h : Recorded history m) (path : String) :
    m.versions path = added history path := by
  rw [Memory.versions, h.secrets]
  split
  · next hnone => rw [hnone, Option.getD_none]
  · rw [Option.getD_some]

/-- One operation keeps the invariant. -/
theorem Recorded.concat (h : Recorded history m) (op : Operation) :
    Recorded (history ++ [op]) (m.perform op) := by
  cases op with
  | addVersion path data =>
    refine ⟨fun asked => ?_, fun name => ?_, ?_⟩
    · rw [added_concat]
      by_cases hasked : asked = path
      · subst hasked
        simp [perform, Memory.addVersion, Operation.adds?, h.versions]
      · simp [perform, Memory.addVersion, Operation.adds?, hasked, Ne.symm hasked, h.secrets]
    · rw [lastFailure?_concat]
      exact h.failures name
    · rw [accesses_concat]
      exact h.calls
  | failWith name failure =>
    refine ⟨fun path => ?_, fun asked => ?_, ?_⟩
    · rw [added_concat]
      simpa [perform, Memory.failWith, Operation.adds?] using h.secrets path
    · rw [lastFailure?_concat]
      by_cases hasked : asked = name
      · subst hasked
        simp [perform, Memory.failWith, Operation.sets?]
      · simp [perform, Memory.failWith, Operation.sets?, hasked, Ne.symm hasked, h.failures]
    · rw [accesses_concat]
      exact h.calls
  | access name =>
    refine ⟨fun path => ?_, fun asked => ?_, ?_⟩
    · rw [added_concat]
      simpa [perform, Memory.access, Operation.adds?] using h.secrets path
    · rw [lastFailure?_concat]
      exact h.failures asked
    · rw [accesses_concat]
      exact congrArg (· + 1) h.calls

/-- **A backend holds what its history says.** -/
theorem recorded (endpoint : String) (latency : Nat) (history : List Operation) :
    Recorded history (replay endpoint latency history) := by
  induction history using List.reverseRecOn with
  | nil => exact recorded_new endpoint latency
  | append_singleton history op ih =>
    rw [replay, List.foldl_append]
    exact ih.concat op

/-! ## Answers -/

/-- The answer to `name` that `history` leads to. A failure that was set for the name counts first,
then the name itself, and then the versions of its secret. -/
inductive Tells (history : List Operation) (name : String) : Answer → Prop
  | failed {failure : Failure} (hlast : lastFailure? history name = some failure) :
      Tells history name (.error failure)
  | misnamed {fault : VersionName.Fault} (hlast : lastFailure? history name = none)
      (hname : VersionName.parse name = .error fault) :
      Tells history name (.error ⟨.invalidArgument, fault.message⟩)
  | unknown {n : VersionName} (hlast : lastFailure? history name = none)
      (hname : VersionName.parse name = .ok n) (hadded : added history n.secretPath = []) :
      Tells history name
        (.error ⟨.notFound, s!"Secret [{n.secretPath}] not found or has no versions."⟩)
  | beyond {n : VersionName} {number : Nat} (hlast : lastFailure? history name = none)
      (hname : VersionName.parse name = .ok n) (hadded : added history n.secretPath ≠ [])
      (hversion : n.version = .number number)
      (hbeyond : (added history n.secretPath).length < number) :
      Tells history name (.error ⟨.notFound, s!"Secret Version [{name}] not found."⟩)
  | served {n : VersionName} {number : Nat} {data : Bytes}
      (hlast : lastFailure? history name = none) (hname : VersionName.parse name = .ok n)
      (hversion : n.version = .number number ∨
        n.version = .latest ∧ number = (added history n.secretPath).length)
      (hpos : 1 ≤ number) (hdata : (added history n.secretPath)[number - 1]? = some data) :
      Tells history name (.ok ⟨n.secretPath ++ "/versions/" ++ toString number, data⟩)

theorem text_withVersion (n : VersionName) (number : Nat) :
    (n.withVersion (.number number)).text = n.secretPath ++ "/versions/" ++ toString number := rfl

/-- A history tells the answer that the backend gives. -/
theorem Recorded.tells (h : Recorded history m) (name : String) :
    Tells history name (m.answer name) := by
  rw [answer, h.failures]
  cases hlast : lastFailure? history name with
  | some failure => exact .failed hlast
  | none =>
    simp only [lookUp]
    cases hname : VersionName.parse name with
    | error fault => exact .misnamed hlast hname
    | ok n =>
      simp only [h.secrets]
      by_cases hadded : added history n.secretPath = []
      · rw [if_pos hadded]
        exact .unknown hlast hname hadded
      · rw [if_neg hadded]
        simp only [text_withVersion]
        have hlength : 1 ≤ (added history n.secretPath).length := List.length_pos_iff.2 hadded
        cases hversion : n.version with
        | latest =>
          rw [numberOf, if_neg (by omega), ← List.getLast?_eq_getElem?,
            List.getLast?_eq_some_getLast hadded]
          refine .served hlast hname (Or.inr ⟨hversion, rfl⟩) hlength ?_
          rw [← List.getLast?_eq_getElem?, List.getLast?_eq_some_getLast hadded]
        | number number =>
          have hvalid := (VersionName.wellFormed_of_parse hname).version
          rw [hversion] at hvalid
          have hpos : 1 ≤ number := hvalid.1
          rw [numberOf, if_neg (by omega)]
          cases hdata : (added history n.secretPath)[number - 1]? with
          | none =>
            have hbeyond := List.getElem?_eq_none_iff.1 hdata
            exact .beyond hlast hname hadded hversion (by omega)
          | some data => exact .served hlast hname (Or.inl hversion) hpos hdata

/-- A history tells no other answer. -/
theorem Recorded.answer_of_tells (h : Recorded history m) {name : String} {a : Answer}
    (ha : Tells history name a) : m.answer name = a := by
  cases ha with
  | failed hlast => simp [answer, h.failures, hlast]
  | misnamed hlast hname => simp [answer, h.failures, hlast, lookUp, hname]
  | unknown hlast hname hadded =>
    simp [answer, h.failures, hlast, lookUp, hname, h.secrets, hadded]
  | beyond hlast hname hadded hversion hbeyond =>
    have hnone := List.getElem?_eq_none_iff.2 (Nat.le_sub_one_of_lt hbeyond)
    simp [answer, h.failures, hlast, lookUp, hname, h.secrets, hadded, hversion, numberOf, hnone]
  | @served n number data hlast hname hversion hpos hdata =>
    have hadded : added history n.secretPath ≠ [] := by
      intro hnil
      simp [hnil] at hdata
    have hnumber : numberOf (added history n.secretPath) n.version = number := by
      rcases hversion with hversion | ⟨hversion, rfl⟩
      · rw [hversion, numberOf]
      · rw [hversion, numberOf]
    have hne : number ≠ 0 := by omega
    simp [answer, h.failures, hlast, lookUp, hname, h.secrets, hadded, hnumber, hne, hdata,
      text_withVersion]

theorem Recorded.answer_eq_iff (h : Recorded history m) {name : String} {a : Answer} :
    m.answer name = a ↔ Tells history name a :=
  ⟨fun ha => ha ▸ h.tells name, h.answer_of_tells⟩

/-! ## What does not matter -/

variable (endpoint : String) (latency : Nat)

/-- Without its accesses, a history leads to the same backend, the count apart. -/
theorem replay_without_accesses (history : List Operation) :
    replay endpoint latency (history.filter (!·.isAccess)) =
      { replay endpoint latency history with calls := 0 } := by
  induction history using List.reverseRecOn with
  | nil => rfl
  | append_singleton history op ih =>
    rw [replay] at ih
    rw [List.filter_append, replay, replay, List.foldl_append, List.foldl_append, ih]
    cases op <;> rfl

/-- `history` without the versions that were added to the secret at `path`. -/
def without (path : String) (history : List Operation) : List Operation :=
  history.filter fun op => (op.adds? path).isNone

theorem added_without {path other : String} (h : other ≠ path) (history : List Operation) :
    added (without path history) other = added history other := by
  rw [added, without, List.filterMap_filter]
  refine List.filterMap_congr fun op _ => ?_
  cases op with
  | addVersion added data =>
    by_cases hadded : added = path
    · simp [Operation.adds?, hadded, Ne.symm h]
    · simp [Operation.adds?, hadded]
  | failWith | access => rfl

theorem lastFailure?_without (path name : String) (history : List Operation) :
    lastFailure? (without path history) name = lastFailure? history name := by
  rw [lastFailure?, without, List.filterMap_filter]
  refine congrArg List.getLast? (List.filterMap_congr fun op _ => ?_)
  cases op with
  | addVersion added data => simp [Operation.sets?]
  | failWith | access => rfl

/-- An answer depends on the failure for its name and on the versions of its secret only. -/
theorem Tells.congr {other : List Operation} {name : String} {a : Answer}
    (hfailure : lastFailure? other name = lastFailure? history name)
    (hadded : ∀ n, VersionName.parse name = .ok n →
      added other n.secretPath = added history n.secretPath)
    (h : Tells history name a) : Tells other name a := by
  cases h with
  | failed hlast => exact .failed (hfailure.trans hlast)
  | misnamed hlast hname => exact .misnamed (hfailure.trans hlast) hname
  | unknown hlast hname hnil =>
    exact .unknown (hfailure.trans hlast) hname ((hadded _ hname).trans hnil)
  | beyond hlast hname hne hversion hbeyond =>
    rw [← hadded _ hname] at hne hbeyond
    exact .beyond (hfailure.trans hlast) hname hne hversion hbeyond
  | served hlast hname hversion hpos hdata =>
    rw [← hadded _ hname] at hversion hdata
    exact .served (hfailure.trans hlast) hname hversion hpos hdata

/-- What is added to one secret does not change the answers about others. -/
theorem answer_without (history : List Operation) {path name : String}
    (h : ∀ n, VersionName.parse name = .ok n → n.secretPath ≠ path) :
    (replay endpoint latency (without path history)).answer name =
      (replay endpoint latency history).answer name := by
  have htells := (recorded endpoint latency history).tells name
  have htold := htells.congr (lastFailure?_without path name history)
    fun n hn => added_without (h n hn) history
  exact (recorded endpoint latency (without path history)).answer_of_tells htold

/-! ## Numbers -/

theorem Recorded.number_addVersion (h : Recorded history m) (path : String) (data : Bytes) :
    (m.addVersion path data).2 = (added history path).length + 1 := by
  rw [addVersion, h.versions, List.length_append, List.length_singleton]

end SecretMount.Backend.Memory

namespace SecretMount.Fleet

open Backend

/-- An access through the handle of a backend in memory is an access to this backend. -/
theorem access_handle {f : Fleet} {id : Nat} {m : Memory} (h : f.memory? id = some m)
    (name : String) :
    ((f.handle id).reply name).answer = (m.access name).2 ∧
      (f.charge [id]).memory? id = some (m.access name).1 := by
  constructor
  · rw [handle_of_memory? h]
    rfl
  · rw [memory?_charge, h]
    simp [Memory.access]

end SecretMount.Fleet

namespace SecretMount.Backend.Memory

/-- **A backend in memory is what was done with it.** Whatever was done before, the versions of a
secret are numbered one after the other, the answer to a name is the one that the history tells, and
each access is counted. Accesses change nothing else, and what is added to one secret changes
neither the numbers nor the answers of another. An access through a handle is such an access. -/
theorem history_tells_results (endpoint : String) (latency : Nat) (history : List Operation) :
    let m := replay endpoint latency history
    (∀ path data, (m.addVersion path data).2 = (added history path).length + 1) ∧
    (∀ name a, (m.access name).2 = a ↔ Tells history name a) ∧
    m.calls = accesses history ∧
    replay endpoint latency (history.filter (!·.isAccess)) = { m with calls := 0 } ∧
    (∀ path, let other := replay endpoint latency (without path history)
      (∀ path' data, path' ≠ path → (other.addVersion path' data).2 = (m.addVersion path' data).2) ∧
      ∀ name, (∀ n, VersionName.parse name = .ok n → n.secretPath ≠ path) →
        (other.access name).2 = (m.access name).2) ∧
    ∀ (fleet : Fleet) (id : Nat) (name : String), fleet.memory? id = some m →
      ((fleet.handle id).reply name).answer = (m.access name).2 ∧
        (fleet.charge [id]).memory? id = some (m.access name).1 := by
  intro m
  have hm : Recorded history m := recorded endpoint latency history
  refine ⟨fun path data => hm.number_addVersion path data, fun name a => hm.answer_eq_iff, hm.calls,
    replay_without_accesses endpoint latency history, fun path => ⟨?_, ?_⟩, ?_⟩
  · intro path' data hpath
    have hother := recorded endpoint latency (without path history)
    rw [hother.number_addVersion, hm.number_addVersion, added_without hpath]
  · exact fun name h => answer_without endpoint latency history h
  · exact fun fleet id name h => Fleet.access_handle h name

/-- A failure takes the place of one version, and the newest version stays what it is. -/
theorem history_tells_results_newest :
    let path := "projects/p/secrets/s"
    let newest := path ++ "/versions/latest"
    let denied : Failure := ⟨.permissionDenied, "denied"⟩
    let history : List Operation :=
      [.addVersion path [1], .failWith (path ++ "/versions/1") denied, .addVersion "other" [7],
        .access "s", .addVersion path [2]]
    let m := replay "memory" 0 history
    let fleet : Fleet := ⟨[.memory m]⟩
    (m.addVersion path [3]).2 = 3 ∧
      (m.access (path ++ "/versions/1")).2 = .error denied ∧
      (m.access newest).2 = .ok ⟨path ++ "/versions/2", [2]⟩ ∧
      m.calls = 1 ∧
      ((replay "memory" 0 (without "other" history)).access newest).2 = (m.access newest).2 ∧
      ((fleet.handle 0).reply newest).answer = (m.access newest).2 := by
  intro path newest denied history m fleet
  obtain ⟨hnumber, hanswer, hcalls, -, hother, hfleet⟩ :=
    history_tells_results "memory" 0 history
  have hname : VersionName.parse newest = .ok ⟨"p", none, "s", .latest⟩ := by decide
  have hpath : (⟨"p", none, "s", .latest⟩ : VersionName).secretPath = path := by decide
  have hadded : added history path = [[1], [2]] := by decide
  refine ⟨?_, ?_, ?_, ?_, ?_, ?_⟩
  · rw [hnumber, hadded]
    rfl
  · exact (hanswer _ _).2 (.failed (by decide))
  · have hserved : path ++ "/versions/2" = path ++ "/versions/" ++ toString 2 := by decide
    rw [hserved, ← hpath]
    have hlast : lastFailure? history newest = none := by decide
    refine (hanswer _ _).2 (.served hlast hname (Or.inr ⟨rfl, ?_⟩) (by decide) ?_)
    · rw [hpath, hadded]
      rfl
    · rw [hpath, hadded]
      rfl
  · rw [hcalls]
    decide
  · refine (hother "other").2 newest fun n hn => ?_
    cases hname.symm.trans hn
    rw [hpath]
    decide
  · exact (hfleet fleet 0 newest rfl).1

end SecretMount.Backend.Memory
