import SecretMount.Mount.Run
import SecretMount.Proofs.Spelling

/-!
# The stages of an entry

* `Mount.Serves` : the handle that serves an entry;
* `Mount.Misrouted` : why no handle serves an entry, one case for each stage before the access;
* `Mount.route_eq`, `Mount.resolve_eq` : what comes before an access and behind it, stage by stage;
* `Mount.misrouted_iff`, `Mount.route_of_serves`, `Mount.serves_of_route` : an entry has a route
  when a handle serves it, and the name on the route is spelled as the entry spells it.
-/

namespace SecretMount.Mount

open Backend

/-- The entry has a destination and a name, and the table has a handle for this name. -/
def Serves (table : RoutingTable Handle) (e : Entry) (handle : Handle) : Prop :=
  e.outputPath ≠ "" ∧ ∃ name, VersionName.parse e.resourceName = .ok name ∧
    table.route name = .ok handle

/-- Why no handle serves an entry. -/
inductive Misrouted (table : RoutingTable Handle) (e : Entry) : Cause → Prop
  | noDestination (hpath : e.outputPath = "") : Misrouted table e .noDestination
  | name {fault : VersionName.Fault} (hpath : e.outputPath ≠ "")
      (hname : VersionName.parse e.resourceName = .error fault) : Misrouted table e (.name fault)
  | unrouted {name : VersionName} {location : String} (hpath : e.outputPath ≠ "")
      (hname : VersionName.parse e.resourceName = .ok name)
      (hlocation : table.route name = .error location) : Misrouted table e (.unrouted location)

variable {table : RoutingTable Handle} {permissions : Mode}

/-- The stages of a route. -/
theorem route_eq (e : Entry) :
    route table e =
      if e.outputPath = "" then .error .noDestination
      else match VersionName.parse e.resourceName with
        | .error fault => .error (.name fault)
        | .ok name => match table.route name with
          | .error location => .error (.unrouted location)
          | .ok handle => .ok (name, handle) := by
  unfold route
  simp only [String.isEmpty_iff]
  split
  · rfl
  · cases VersionName.parse e.resourceName with
    | error fault => rfl
    | ok name =>
      cases htable : table.route name with
      | error location => simp [htable, bind, Except.bind]
      | ok handle => simp [htable, bind, Except.bind, pure, Except.pure]

theorem misrouted_iff {e : Entry} {cause : Cause} :
    Misrouted table e cause ↔ route table e = .error cause := by
  constructor
  · intro h
    cases h with
    | noDestination hpath => simp [route_eq, hpath]
    | name hpath hname => simp [route_eq, hpath, hname]
    | unrouted hpath hname hlocation => simp [route_eq, hpath, hname, hlocation]
  · intro h
    rw [route_eq] at h
    split at h
    · next hpath =>
      cases h
      exact .noDestination hpath
    · next hpath =>
      split at h
      · next fault hname =>
        cases h
        exact .name hpath hname
      · next name hname =>
        split at h
        · next location hlocation =>
          cases h
          exact .unrouted hpath hname hlocation
        · cases h

theorem route_of_serves {e : Entry} {handle : Handle} (h : Serves table e handle) :
    ∃ name, route table e = .ok (name, handle) ∧ name.text = e.resourceName := by
  obtain ⟨hpath, name, hname, htable⟩ := h
  refine ⟨name, ?_, VersionName.text_of_parse hname⟩
  simp [route_eq, hpath, hname, htable]

theorem serves_of_route {e : Entry} {name : VersionName} {handle : Handle}
    (h : route table e = .ok (name, handle)) :
    Serves table e handle ∧ VersionName.parse e.resourceName = .ok name ∧
      name.text = e.resourceName := by
  rw [route_eq] at h
  split at h
  · cases h
  · next hpath =>
    split at h
    · cases h
    · next n hname =>
      split at h
      · cases h
      · next htable =>
        cases h
        exact ⟨⟨hpath, name, hname, htable⟩, hname, VersionName.text_of_parse hname⟩

/-- The stages of an answer. -/
theorem resolve_eq (e : Entry) (answer : Answer) :
    resolve e permissions answer =
      match answer with
      | .error failure => .error (.backend failure)
      | .ok served => match Fetch.concreteVersion? served.name with
        | none => .error (.unresolved served.name)
        | some _ => match Payload.transform served.data e.encoding e.extraction with
          | .error fault => .error (.payload fault)
          | .ok contents => .ok ⟨⟨e.resourceName, served.name⟩,
              ⟨e.outputPath, e.effectiveMode permissions, contents⟩⟩ := by
  unfold resolve Fetch.result
  cases answer with
  | error failure => rfl
  | ok served =>
    cases hversion : Fetch.concreteVersion? served.name with
    | none => simp [hversion, bind, Except.bind]
    | some version =>
      cases hpayload : Payload.transform served.data e.encoding e.extraction with
      | error fault => simp [hversion, hpayload, bind, Except.bind]
      | ok contents => simp [hversion, hpayload, bind, Except.bind, pure, Except.pure]

end SecretMount.Mount
