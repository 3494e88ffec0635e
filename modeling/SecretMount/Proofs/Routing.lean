import Mathlib.Data.List.Sort
import SecretMount.Proofs.Locations
import SecretMount.Proofs.Utf8

/-!
# The last handle serves

A table is changed by one kind of call, which gives a location its handle. After any number of these
calls a name in a location is served by the last handle that the location was given, or by none: the
handle for secrets without a location is never used in place of one that is missing.

* `Table.keys_eq_iff` : the keys of a table are the one list of them that increases;
* `RoutingTable.route_register` : what one call does to the routes;
* `RoutingTable.LastGiven` : the last handle of a location among those that it was given, and
  `RoutingTable.serving?_registerAll_iff` : this is the one that it has after the calls;
* `RoutingTable.route_eq_error_iff`, `RoutingTable.exists_route_iff` : the names without a handle
  and with one;
* `RoutingTable.locations_eq_iff` : the order in which locations are listed is that of their bytes;
* `RoutingTable.last_given_serves` : routes, locations and their order after any calls.
-/

namespace SecretMount

theorem Table.keys_eq_iff {α : Type} {t : Table α} {keys : List String} :
    t.keys = keys ↔ keys.Pairwise (· < ·) ∧ ∀ k, k ∈ keys ↔ t.contains k = true := by
  constructor
  · rintro rfl
    exact ⟨t.increasing, t.mem_keys_iff⟩
  · rintro ⟨hincreasing, hmem⟩
    have hkeys : t.keys.Pairwise (· < ·) := t.increasing
    exact hkeys.eq_of_mem_iff hincreasing fun k => (t.mem_keys_iff k).trans (hmem k).symm

namespace RoutingTable

variable {H : Type} {t : RoutingTable H} {calls : List (String × H)} {name : VersionName}
  {location : String} {h : H}

/-! ## One call -/

/-- A call changes the routes of the names in its location and no others. -/
theorem route_register (t : RoutingTable H) (location : String) (h : H) (name : VersionName) :
    (t.register location h).route name =
      if name.location = some location then .ok h else t.route name := by
  unfold route register
  cases name.location with
  | none => rfl
  | some asked =>
    by_cases hasked : asked = location
    · subst hasked
      simp
    · simp [hasked]

/-! ## All calls -/

/-- `h` is the last handle that `location` is given in `given`. -/
def LastGiven (given : List (String × H)) (location : String) (h : H) : Prop :=
  ∃ before after, given = before ++ (location, h) :: after ∧ location ∉ after.map Prod.fst

theorem LastGiven.mem {given : List (String × H)} (hlast : LastGiven given location h) :
    (location, h) ∈ given := by
  obtain ⟨before, after, rfl, -⟩ := hlast
  exact List.mem_append_right before List.mem_cons_self

theorem general_registerAll (t : RoutingTable H) (calls : List (String × H)) :
    (t.registerAll calls).general = t.general := by
  induction calls generalizing t with
  | nil => rfl
  | cons call calls ih => exact ih (t.register call.1 call.2)

/-- The handles that a table had count as given before the calls. -/
theorem serving?_registerAll_iff :
    (t.registerAll calls).serving? (some location) = some h ↔
      LastGiven (t.regional.entries ++ calls) location h := by
  have hentries : t.regional.entries.reverse.lookup location = t.serving? (some location) :=
    Table.lookup_reverse t.regional.nodup_keys location
  rw [serving?_registerAll, ← hentries, ← List.lookup_append, ← List.reverse_append]
  exact Table.lookup_reverse_eq_some_iff

/-! ## What a table answers -/

theorem hasLocation_iff :
    t.hasLocation location = true ↔ ∃ h, t.serving? (some location) = some h :=
  Option.isSome_iff_exists

/-- The only names without a handle are those in a location without one. -/
theorem route_eq_error_iff :
    t.route name = .error location ↔
      name.location = some location ∧ t.hasLocation location = false := by
  unfold route hasLocation Table.contains
  cases name.location with
  | none => simp
  | some asked =>
    by_cases hasked : asked = location
    · subst hasked
      cases hget : t.regional.get? asked <;> simp [hget]
    · cases hget : t.regional.get? asked <;> simp [hget, hasked]

theorem exists_route_iff :
    (∃ h, t.route name = .ok h) ↔
      name.location = none ∨ ∃ l, name.location = some l ∧ t.hasLocation l = true := by
  simp only [route_eq_ok_iff, hasLocation_iff]
  cases name.location with
  | none => simp [serving?]
  | some l => simp

theorem route_registerAll_iff :
    (t.registerAll calls).route name = .ok h ↔
      (name.location = none ∧ h = t.general) ∨
        ∃ l, name.location = some l ∧ LastGiven (t.regional.entries ++ calls) l h := by
  rw [route_eq_ok_iff]
  cases name.location with
  | none => simp [serving?, general_registerAll, eq_comm]
  | some l => simp [serving?_registerAll_iff]

/-- A location has a handle once it was given one. -/
theorem hasLocation_registerAll_iff :
    (t.registerAll calls).hasLocation location = true ↔
      location ∈ (t.regional.entries ++ calls).map Prod.fst := by
  rw [hasLocation_iff]
  constructor
  · rintro ⟨h, hserving⟩
    exact List.mem_map_of_mem (serving?_registerAll_iff.1 hserving).mem
  · intro hmem
    obtain ⟨h, hlast⟩ := exists_last hmem
    exact ⟨h, serving?_registerAll_iff.2 (Table.lookup_reverse_eq_some_iff.1 hlast)⟩

theorem locations_eq_iff {locations : List String} :
    t.locations = locations ↔
      locations.Pairwise (fun l l' => Text.encode l < Text.encode l') ∧
        ∀ l, l ∈ locations ↔ t.hasLocation l = true := by
  simp only [Text.encode_lt_encode_iff]
  exact Table.keys_eq_iff

/-- **The last handle of a location serves it, and no other handle does.** After any calls a name
has a route when it has no location or its location has a handle. Names without a location have the
handle for these, and the others the last one that was given to their location, be it before the
calls or by one of them. So where no location was given the handle for names without one, it serves
these alone. A call changes no routes but those of its location. The locations with a handle are
listed once each, in the order of their bytes. -/
theorem last_given_serves (t : RoutingTable H) (calls : List (String × H)) :
    let u := t.registerAll calls
    let given := t.regional.entries ++ calls
    (∀ name : VersionName,
      ((∃ h, u.route name = .ok h) ↔
        name.location = none ∨ ∃ l, name.location = some l ∧ u.hasLocation l = true) ∧
      (∀ h, u.route name = .ok h ↔
        (name.location = none ∧ h = t.general) ∨
          ∃ l, name.location = some l ∧ LastGiven given l h) ∧
      (∀ l, u.route name = .error l ↔ name.location = some l ∧ u.hasLocation l = false) ∧
      (t.general ∉ given.map Prod.snd →
        (u.route name = .ok t.general ↔ name.location = none))) ∧
    (∀ l, u.hasLocation l = true ↔ l ∈ given.map Prod.fst) ∧
    (∀ (l : String) (h : H) (name : VersionName), name.location ≠ some l →
      (u.register l h).route name = u.route name) ∧
    ∀ locations, u.locations = locations ↔
      locations.Pairwise (fun l l' => Text.encode l < Text.encode l') ∧
        ∀ l, l ∈ locations ↔ u.hasLocation l = true := by
  intro u given
  refine ⟨fun name => ⟨exists_route_iff, fun h => route_registerAll_iff,
    fun l => route_eq_error_iff, fun hnew => ?_⟩, fun l => hasLocation_registerAll_iff,
    fun l h name hne => ?_, fun locations => locations_eq_iff⟩
  · constructor
    · intro hroute
      rcases route_registerAll_iff.1 hroute with ⟨hnone, -⟩ | ⟨l, -, hlast⟩
      · exact hnone
      · exact absurd (List.mem_map_of_mem hlast.mem) hnew
    · exact fun hnone => route_registerAll_iff.2 (Or.inl ⟨hnone, rfl⟩)
  · rw [route_register, if_neg hne]

/-- A location that is given another handle, one that has none and starts like it, and two that are
in another order by their UTF-16 units. -/
theorem last_given_serves_replaced :
    let t : RoutingTable Nat := (ofGeneral 0).register "us-east1" 1
    let calls := [("😀", 2), ("us-east1", 3), ("｡", 4)]
    let u := t.registerAll calls
    let name (location : Option String) : VersionName := ⟨"p", location, "s", .latest⟩
    t.general ∉ (t.regional.entries ++ calls).map Prod.snd ∧
      u.route (name none) = .ok 0 ∧
      u.route (name (some "us-east1")) = .ok 3 ∧
      u.route (name (some "us-east")) = .error "us-east" ∧
      (name (some "us-east1")).location ≠ some "｡" ∧
      (u.register "｡" 5).route (name (some "us-east1")) = .ok 3 ∧
      u.locations = ["us-east1", "｡", "😀"] ∧ Text.encode "｡" < Text.encode "😀" := by
  intro t calls u name
  have hnew : t.general ∉ (t.regional.entries ++ calls).map Prod.snd := by decide
  have hother : (name (some "us-east1")).location ≠ some "｡" := by decide
  have hlast : LastGiven (t.regional.entries ++ calls) "us-east1" 3 :=
    ⟨[("us-east1", 1), ("😀", 2)], [("｡", 4)], by decide, by decide⟩
  have hlocations : u.locations = ["us-east1", "｡", "😀"] := by decide
  obtain ⟨hroutes, -, hkept, hordered⟩ := last_given_serves t calls
  have hroute : u.route (name (some "us-east1")) = .ok 3 :=
    ((hroutes (name (some "us-east1"))).2.1 3).2 (Or.inr ⟨"us-east1", rfl, hlast⟩)
  refine ⟨hnew, ((hroutes (name none)).2.2.2 hnew).2 rfl, hroute,
    ((hroutes (name (some "us-east"))).2.2.1 "us-east").2 ⟨rfl, by decide⟩, hother,
    (hkept "｡" 5 _ hother).trans hroute, hlocations, ?_⟩
  exact List.rel_of_pairwise_cons (List.pairwise_cons.1 ((hordered _).1 hlocations).1).2
    List.mem_cons_self

end RoutingTable

end SecretMount
