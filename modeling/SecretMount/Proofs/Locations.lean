import Mathlib.Tactic.TFAE
import SecretMount.Proofs.Access
import SecretMount.Proofs.Blame
import SecretMount.Proofs.Environment

/-!
# What a location is

Settings and names agree on locations: what may be a region in settings is what may be the location
of a name. So once each region of valid settings has a handle, the names of secrets in these regions
have routes.

* `VersionName.path` : a text with anything in the place of the location;
  `VersionName.parse_path_iff` : which of these are read as names;
* `Settings.withRegions`, `Settings.validate_withRegions_iff` : which regions settings may have;
* `RoutingTable.registerAll`, `RoutingTable.serving?_registerAll` : a location has the last handle
  that it was given;
* `Location.regions_are_locations` : the ways to say that a text is a location, and the routes to
  the regions of valid settings.
-/

namespace SecretMount

/-! ## Names -/

namespace VersionName

/-- The text of a name with any text in the place of its location. -/
def path (project location secret token : String) : String :=
  "projects/" ++ project ++ "/locations/" ++ location ++ "/secrets/" ++ secret ++ "/versions/" ++
    token

/-- The segments of such a text have the pieces of `location` in the place of the location. -/
theorem path_eq_located (project location secret token : String) :
    path project location secret token =
      located project (Text.split '/' location) secret token := by
  have hsplit : Text.split '/' location ≠ [] := by
    simp [Text.split, List.splitOn_ne_nil]
  have hsegments : "projects" :: project :: ("locations" :: Text.split '/' location ++
      ["secrets", secret, "versions", token]) = ["projects", project, "locations"] ++
        (Text.split '/' location ++ ["secrets", secret, "versions", token]) := rfl
  rw [located, hsegments, Text.joinWith_append '/' (by simp) (by simp),
    Text.joinWith_append '/' (by simp) hsplit, Text.joinWith_split]
  apply String.toList_inj.1
  simp [path, Text.joinWith, List.intercalate]

/-- Whatever stands in the place of the location, it is read as the location or not at all. -/
theorem parse_path_iff {project location secret token : String} {v : Version} {n : VersionName}
    (hproject : IsSegment project) (hsecret : IsSegment secret)
    (hversion : Version.Spells token v) :
    parse (path project location secret token) = .ok n ↔
      Location.WellFormed location ∧ n = ⟨project, some location, secret, v⟩ := by
  have hjoin := Text.joinWith_split '/' location
  rw [path_eq_located]
  by_cases hlocation : Location.WellFormed location
  · rw [Text.split_of_not_mem hlocation.slash_not_mem,
      parse_located hproject hsecret hversion hlocation]
    constructor
    · rintro ⟨⟩
      exact ⟨hlocation, rfl⟩
    · rintro ⟨-, rfl⟩
      rfl
  · have hfault : LocationFault project (Text.split '/' location) secret token := by
      refine ⟨hproject, hsecret, ⟨v, hversion⟩, fun id => Text.not_mem_of_mem_split, ?_⟩
      rintro ⟨id, hid, hwell⟩
      rw [hid, Text.joinWith_singleton] at hjoin
      exact hlocation (hjoin ▸ hwell)
    rw [parse_of_locationFault hfault]
    constructor
    · nofun
    · exact fun h => absurd h.1 hlocation

end VersionName

/-! ## Settings -/

namespace Settings

/-- The settings with other regions. -/
def withRegions (s : Settings) (regions : List String) : Settings :=
  { s with fetch := { s.fetch with regions } }

/-- Settings are valid when each of their regions is a location, if nothing else is wrong. -/
theorem validate_withRegions_iff {s : Settings} {regions : List String} :
    (s.withRegions regions).validate = .ok () ↔
      (s.withRegions []).validate = .ok () ∧ ∀ r ∈ regions, Location.WellFormed r := by
  rw [validate_eq_ok_iff, validate_eq_ok_iff]
  constructor
  · intro h
    exact ⟨⟨h.one_le_maxConcurrentFetches, h.maxConcurrentFetches_le, h.fetchTimeoutSeconds_le,
      h.serviceName_ne, h.logLevel_ne, nofun⟩, h.regions⟩
  · rintro ⟨h, hregions⟩
    exact ⟨h.one_le_maxConcurrentFetches, h.maxConcurrentFetches_le, h.fetchTimeoutSeconds_le,
      h.serviceName_ne, h.logLevel_ne, hregions⟩

end Settings

/-! ## Routes -/

namespace RoutingTable

variable {H : Type}

/-- The table after locations were given handles, one after the other. -/
def registerAll (t : RoutingTable H) (calls : List (String × H)) : RoutingTable H :=
  calls.foldl (fun t call => t.register call.1 call.2) t

theorem regional_registerAll (t : RoutingTable H) (calls : List (String × H)) :
    (t.registerAll calls).regional =
      calls.foldl (fun t call => t.put call.1 call.2) t.regional := by
  induction calls generalizing t with
  | nil => rfl
  | cons call calls ih => exact ih (t.register call.1 call.2)

/-- A location has the last handle that it was given, or else the one that it had. -/
theorem serving?_registerAll (t : RoutingTable H) (calls : List (String × H)) (location : String) :
    (t.registerAll calls).serving? (some location) =
      (calls.reverse.lookup location).or (t.serving? (some location)) := by
  rw [serving?, regional_registerAll, Table.get?_foldl_put]
  rfl

theorem route_registerAll {t : RoutingTable H} {calls : List (String × H)} {location : String}
    {h : H} (hlast : calls.reverse.lookup location = some h) {n : VersionName}
    (hn : n.location = some location) : (t.registerAll calls).route n = .ok h := by
  rw [route_eq_ok_iff, hn, serving?_registerAll, hlast]
  rfl

theorem exists_last {calls : List (String × H)} {location : String}
    (h : location ∈ calls.map Prod.fst) : ∃ h, calls.reverse.lookup location = some h := by
  rw [← Option.isSome_iff_exists, List.lookup_isSome_iff]
  obtain ⟨call, hcall, hlocation⟩ := List.mem_map.1 h
  exact ⟨call, List.mem_reverse.2 hcall, by simp [hlocation]⟩

end RoutingTable

namespace Location

open VersionName (path)

/-! ## Agreement -/

theorem exists_validate_iff {l : String} :
    (∃ s : Settings, (s.withRegions [l]).validate = .ok ()) ↔ WellFormed l := by
  constructor
  · rintro ⟨s, hs⟩
    exact (Settings.validate_withRegions_iff.1 hs).2 l (List.mem_singleton_self l)
  · intro hl
    refine ⟨.standard, Settings.validate_withRegions_iff.2 ⟨by decide, ?_⟩⟩
    exact List.forall_mem_singleton.2 hl

theorem forall_validate_iff {l : String} :
    (∀ s : Settings, (s.withRegions []).validate = .ok () →
      (s.withRegions [l]).validate = .ok ()) ↔ WellFormed l := by
  constructor
  · intro h
    exact exists_validate_iff.1 ⟨.standard, h .standard (by decide)⟩
  · intro hl s hs
    exact Settings.validate_withRegions_iff.2 ⟨hs, List.forall_mem_singleton.2 hl⟩

theorem parse_path {l project secret token : String} (hl : WellFormed l)
    (hproject : IsSegment project) (hsecret : IsSegment secret)
    (hversion : ∃ v, Version.Spells token v) :
    ∃ n, VersionName.parse (path project l secret token) = .ok n ∧ n.location = some l := by
  obtain ⟨v, hv⟩ := hversion
  exact ⟨_, (VersionName.parse_path_iff hproject hsecret hv).2 ⟨hl, rfl⟩, rfl⟩

theorem exists_parse_iff {l : String} :
    (∃ project secret token n, IsSegment project ∧ IsSegment secret ∧
      (∃ v, Version.Spells token v) ∧ VersionName.parse (path project l secret token) = .ok n) ↔
      WellFormed l := by
  constructor
  · rintro ⟨project, secret, token, n, hproject, hsecret, ⟨v, hv⟩, hn⟩
    exact ((VersionName.parse_path_iff hproject hsecret hv).1 hn).1
  · intro hl
    have hsegment : IsSegment "p" := ⟨by decide, by decide⟩
    obtain ⟨n, hn, -⟩ := parse_path hl hsegment hsegment ⟨_, .latest⟩
    exact ⟨"p", "p", "latest", n, hsegment, hsegment, ⟨_, .latest⟩, hn⟩

theorem forall_parse_iff {l : String} :
    (∀ project secret token, IsSegment project → IsSegment secret →
      (∃ v, Version.Spells token v) →
      ∃ n, VersionName.parse (path project l secret token) = .ok n ∧ n.location = some l) ↔
      WellFormed l := by
  constructor
  · intro h
    have hsegment : IsSegment "p" := ⟨by decide, by decide⟩
    obtain ⟨n, hn, -⟩ := h "p" "p" "latest" hsegment hsegment ⟨_, .latest⟩
    exact exists_parse_iff.1 ⟨"p", "p", "latest", n, hsegment, hsegment, ⟨_, .latest⟩, hn⟩
  · exact fun hl project secret token => parse_path hl

/-- **Settings and names agree on what a location is.** A text is valid as a location when it is
made of the right characters, when settings with nothing else wrong may have it as their region, be
it all of them or some, and when a text with it in the place of the location is read as a name in
this location, or is read as a name at all, whatever else the text has. So when the regions of valid
settings have handles, all the names in one of them have its last handle as their route, and there
are such names. -/
theorem regions_are_locations :
    (∀ l : String, List.TFAE [
      isValid l = true,
      WellFormed l,
      ∀ s : Settings, (s.withRegions []).validate = .ok () →
        (s.withRegions [l]).validate = .ok (),
      ∃ s : Settings, (s.withRegions [l]).validate = .ok (),
      ∀ project secret token, IsSegment project → IsSegment secret →
        (∃ v, Version.Spells token v) →
        ∃ n, VersionName.parse (path project l secret token) = .ok n ∧ n.location = some l,
      ∃ project secret token n, IsSegment project ∧ IsSegment secret ∧
        (∃ v, Version.Spells token v) ∧
        VersionName.parse (path project l secret token) = .ok n]) ∧
    ∀ (H : Type) (t : RoutingTable H) (calls : List (String × H)) (s : Settings),
      s.validate = .ok () → (∀ r ∈ s.fetch.regions, r ∈ calls.map Prod.fst) →
      ∀ r ∈ s.fetch.regions, ∃ h, calls.reverse.lookup r = some h ∧
        (∀ n : VersionName, n.location = some r → (t.registerAll calls).route n = .ok h) ∧
        ∀ project secret token, IsSegment project → IsSegment secret →
          (∃ v, Version.Spells token v) →
          ∃ n, VersionName.parse (path project r secret token) = .ok n ∧
            (t.registerAll calls).route n = .ok h := by
  refine ⟨fun l => ?_, fun H t calls s hs hcalls r hr => ?_⟩
  · tfae_have 1 ↔ 2 := isValid_iff
    tfae_have 3 ↔ 2 := forall_validate_iff
    tfae_have 4 ↔ 2 := exists_validate_iff
    tfae_have 5 ↔ 2 := forall_parse_iff
    tfae_have 6 ↔ 2 := exists_parse_iff
    tfae_finish
  · obtain ⟨h, hlast⟩ := RoutingTable.exists_last (hcalls r hr)
    have hroute : ∀ n : VersionName, n.location = some r →
        (t.registerAll calls).route n = .ok h := fun n => RoutingTable.route_registerAll hlast
    have hregion : WellFormed r := (Settings.validate_eq_ok_iff.1 hs).regions r hr
    refine ⟨h, hlast, hroute, fun project secret token hproject hsecret hversion => ?_⟩
    obtain ⟨n, hn, hlocation⟩ := parse_path hregion hproject hsecret hversion
    exact ⟨n, hn, hroute n hlocation⟩

/-- A region that was given a handle twice, and a text with words of names in it that is no
region. -/
theorem regions_are_locations_twice :
    let s : Settings := Settings.standard.withRegions ["us-east1", "europe-west3"]
    let t := (RoutingTable.ofGeneral 0).registerAll
      [("europe-west3", 1), ("us-east1", 2), ("europe-west3", 3)]
    s.validate = .ok () ∧
      (∃ n, VersionName.parse (path "p" "europe-west3" "s" "latest") = .ok n ∧
        t.route n = .ok 3) ∧
      ¬ ∃ other : Settings, (other.withRegions ["us/secrets/s/versions/1"]).validate = .ok () := by
  intro s t
  have hs : s.validate = .ok () := by decide +kernel
  have hp : IsSegment "p" := ⟨by decide, by decide⟩
  have hsecret : IsSegment "s" := ⟨by decide, by decide⟩
  obtain ⟨hsame, hroutes⟩ := regions_are_locations
  obtain ⟨h, hlast, -, hnames⟩ := hroutes Nat (RoutingTable.ofGeneral 0)
    [("europe-west3", 1), ("us-east1", 2), ("europe-west3", 3)] s hs (by decide) "europe-west3"
    (by decide)
  cases hlast.symm.trans (show _ = some 3 by decide)
  refine ⟨hs, hnames "p" "s" "latest" hp hsecret ⟨_, .latest⟩, fun hregion => ?_⟩
  exact absurd (((hsame "us/secrets/s/versions/1").out 3 0).1 hregion) (by decide)

end Location

end SecretMount
