import SecretMount.Mount.Failure
import SecretMount.Proofs.Grammar

/-!
# What is blamed for a bad name

The location of a name is blamed when nothing else is wrong, whatever stands in its place: no
segment at all, several, or one that is no id.

* `VersionName.located` : a text with any segments in the place of the location;
* `VersionName.LocationFault` : only these segments are wrong;
* `VersionName.ofSegments_path`, `VersionName.ofSegments_eq_error` : what is read of the segments of
  such a text, and what can be wrong about segments;
* `VersionName.eq_located_of_ofSegments` : which segments have a bad location;
* `VersionName.location_blamed` : when the location is blamed, and what is told about it.
-/

namespace SecretMount.VersionName

/-- The text of a name with `ids` in the place of its location. -/
def located (project : String) (ids : List String) (secret token : String) : String :=
  Text.joinWith '/' ("projects" :: project :: ("locations" :: ids ++
    ["secrets", secret, "versions", token]))

/-- Nothing but `ids` is wrong about such a text. -/
structure LocationFault (project : String) (ids : List String) (secret token : String) : Prop where
  project : IsSegment project
  secret : IsSegment secret
  version : ∃ v, Version.Spells token v
  slash_free : ∀ id ∈ ids, '/' ∉ id.toList
  invalid : ¬ ∃ id, ids = [id] ∧ Location.WellFormed id

/-! ## Segments -/

theorem parse_version_iff {token : String} {v : Version} :
    Version.parse token = .ok v ↔ Version.Spells token v := by
  rw [Version.parse_eq_ok_iff, Version.spells_iff]

/-- What is read of the segments of a text of the right shape. -/
theorem ofSegments_path {project secret token : String} {middle : List String} {v : Version}
    (hproject : project ≠ "") (hsecret : secret ≠ "") (hversion : Version.parse token = .ok v) :
    ofSegments ("projects" :: project :: (middle ++ ["secrets", secret, "versions", token])) =
      (parseLocation middle).map fun location => ⟨project, location, secret, v⟩ := by
  have hlength :
      ("projects" :: project :: (middle ++ ["secrets", secret, "versions", token])).length =
        middle.length + 6 := by simp
  have hdrop : ("projects" :: project :: (middle ++ ["secrets", secret, "versions", token])).drop
      (middle.length + 6 - 4) = ["secrets", secret, "versions", token] := by
    rw [show middle.length + 6 - 4 = middle.length + 2 by omega, List.drop_succ_cons,
      List.drop_succ_cons, List.drop_left]
  unfold ofSegments
  rw [hlength, hdrop, if_neg (by omega)]
  simp only [ne_eq, not_true_eq_false, or_self, if_false, hproject, hsecret, hversion,
    Nat.add_sub_cancel, List.take_left, mapError_ok]
  cases parseLocation middle <;> rfl

/-- The segments behind `locations` are no location unless they are one id. -/
theorem parseLocation_of_invalid {ids : List String}
    (h : ¬ ∃ id, ids = [id] ∧ Location.WellFormed id) :
    parseLocation ("locations" :: ids) = .error (.badLocation (Text.joinWith '/' ids)) := by
  have hbad : ¬ (ids.length = 1 ∧ Location.isValid (Text.joinWith '/' ids) = true) := by
    rintro ⟨hone, hvalid⟩
    obtain ⟨id, rfl⟩ := List.length_eq_one_iff.1 hone
    have hjoin := Text.joinWith_singleton '/' id
    rw [hjoin] at hvalid
    exact h ⟨id, rfl, Location.isValid_iff.1 hvalid⟩
  simp [parseLocation, hbad]

theorem ids_of_parseLocation {middle : List String} {location : String}
    (h : parseLocation middle = .error (.badLocation location)) :
    ∃ ids, middle = "locations" :: ids ∧ location = Text.joinWith '/' ids ∧
      ¬ ∃ id, ids = [id] ∧ Location.WellFormed id := by
  unfold parseLocation at h
  split at h
  · cases h
  · next first ids =>
    split at h
    · cases h
    · next hfirst =>
      simp only at h
      split at h
      · cases h
      · cases h
        refine ⟨ids, by rw [Classical.not_not.1 hfirst], rfl, ?_⟩
        rintro ⟨id, rfl, hid⟩
        have hparse := parseLocation_some hid
        simp_all [parseLocation]

/-- What is wrong about segments: their shape, or else the version, or else the location. -/
theorem ofSegments_eq_error {l : List String} {flaw : Flaw} (h : ofSegments l = .error flaw) :
    flaw ∈ [.tooShort, .badStart, .badEnd, .emptyProject, .emptySecret] ∨
    ∃ project middle secret token,
      l = "projects" :: project :: (middle ++ ["secrets", secret, "versions", token]) ∧
      project ≠ "" ∧ secret ≠ "" ∧
      ((∃ what, Version.parse token = .error what ∧ flaw = .badVersion token what) ∨
        (∃ v, Version.parse token = .ok v) ∧ parseLocation middle = .error flaw) := by
  unfold ofSegments at h
  split at h
  · cases h
    simp
  · next hlength =>
    split at h
    · next first project rest secrets secret versions token htail =>
      have hl := eq_append_of_drop (by omega) htail
      generalize rest.take ((first :: project :: rest).length - 6) = middle at hl h
      split at h
      · cases h
        simp
      · next hfirst =>
        split at h
        · cases h
          simp
        · next hwords =>
          split at h
          · cases h
            simp
          · next hproject =>
            split at h
            · cases h
              simp
            · next hsecret =>
              simp only [ne_eq, not_or, Classical.not_not] at hfirst hwords
              rw [hfirst, hwords.1, hwords.2] at hl
              refine Or.inr ⟨project, middle, secret, token, ?_, hproject, hsecret, ?_⟩
              · rw [hfirst]
                exact hl
              · rcases bind_eq_error_iff.1 h with hversion | ⟨v, hversion, h⟩
                · obtain ⟨what, hwhat, rfl⟩ := mapError_eq_error_iff.1 hversion
                  exact Or.inl ⟨what, hwhat, rfl⟩
                · rcases bind_eq_error_iff.1 h with hlocation | ⟨_, -, h⟩
                  · exact Or.inr ⟨⟨v, mapError_eq_ok_iff.1 hversion⟩, hlocation⟩
                  · cases h
    · cases h
      simp

/-- The segments of which the location is blamed. -/
theorem eq_located_of_ofSegments {l : List String} {location : String}
    (h : ofSegments l = .error (.badLocation location)) :
    ∃ project ids secret token,
      l = "projects" :: project :: ("locations" :: ids ++ ["secrets", secret, "versions", token]) ∧
      project ≠ "" ∧ secret ≠ "" ∧ (∃ v, Version.parse token = .ok v) ∧
      location = Text.joinWith '/' ids ∧ ¬ ∃ id, ids = [id] ∧ Location.WellFormed id := by
  rcases ofSegments_eq_error h with hflaw | ⟨project, middle, secret, token, hl, hproject, hsecret,
    ⟨what, -, hflaw⟩ | ⟨hversion, hlocation⟩⟩
  · simp at hflaw
  · cases hflaw
  · obtain ⟨ids, rfl, hjoin, hinvalid⟩ := ids_of_parseLocation hlocation
    exact ⟨project, ids, secret, token, hl, hproject, hsecret, hversion, hjoin, hinvalid⟩

/-! ## Texts -/

theorem split_located {project secret token : String} {ids : List String} {v : Version}
    (hproject : IsSegment project) (hsecret : IsSegment secret) (hversion : Version.Spells token v)
    (hids : ∀ id ∈ ids, '/' ∉ id.toList) : Text.split '/' (located project ids secret token) =
      "projects" :: project :: ("locations" :: ids ++ ["secrets", secret, "versions", token]) := by
  obtain ⟨-, rfl⟩ := Version.spells_iff.1 hversion
  refine Text.split_joinWith (by simp) ?_
  simp only [List.cons_append, List.forall_mem_cons, List.forall_mem_append, List.not_mem_nil,
    false_implies, implies_true, and_true]
  exact ⟨by decide, hproject.slash_free, by decide, hids, by decide, hsecret.slash_free, by decide,
    v.slash_not_mem_text⟩

/-- With one id in the place of the location the text is that of a name. -/
theorem parse_located {project id secret token : String} {v : Version}
    (hproject : IsSegment project) (hsecret : IsSegment secret) (hversion : Version.Spells token v)
    (hid : Location.WellFormed id) :
    parse (located project [id] secret token) = .ok ⟨project, some id, secret, v⟩ := by
  have hids : ∀ x ∈ [id], '/' ∉ x.toList := List.forall_mem_singleton.2 hid.slash_not_mem
  have hsplit := split_located hproject hsecret hversion hids
  rw [parse, hsplit, ofSegments_path hproject.nonempty hsecret.nonempty
    (parse_version_iff.2 hversion), parseLocation_some hid]
  rfl

theorem parse_of_locationFault {project secret token : String} {ids : List String}
    (h : LocationFault project ids secret token) : parse (located project ids secret token) =
      .error ⟨located project ids secret token, .badLocation (Text.joinWith '/' ids)⟩ := by
  obtain ⟨hproject, hsecret, ⟨v, hversion⟩, hids, hinvalid⟩ := h
  rw [parse, split_located hproject hsecret hversion hids,
    ofSegments_path hproject.nonempty hsecret.nonempty (parse_version_iff.2 hversion),
    parseLocation_of_invalid hinvalid]
  rfl

theorem locationFault_of_parse {s location : String} {f : Fault} (h : parse s = .error f)
    (hflaw : f.flaw = .badLocation location) : ∃ project ids secret token,
      LocationFault project ids secret token ∧ s = located project ids secret token ∧
        location = Text.joinWith '/' ids := by
  obtain ⟨flaw, hsegments, rfl⟩ := mapError_eq_error_iff.1 h
  simp only at hflaw
  subst hflaw
  obtain ⟨project, ids, secret, token, hl, hproject, hsecret, ⟨v, hversion⟩, hjoin, hinvalid⟩ :=
    eq_located_of_ofSegments hsegments
  -- the segments are pieces between slashes
  have hfree : ∀ piece ∈ Text.split '/' s, '/' ∉ piece.toList :=
    fun piece => Text.not_mem_of_mem_split
  have hs := Text.joinWith_split '/' s
  rw [hl] at hfree hs
  exact ⟨project, ids, secret, token,
    ⟨⟨hproject, hfree _ (by simp)⟩, ⟨hsecret, hfree _ (by simp)⟩, ⟨v, parse_version_iff.1 hversion⟩,
      fun id hid => hfree id (by simp [hid]), hinvalid⟩, hs.symm, hjoin⟩

theorem name_of_parse {s : String} {f : Fault} (h : parse s = .error f) : f.name = s := by
  obtain ⟨flaw, -, rfl⟩ := mapError_eq_error_iff.1 h
  rfl

/-- **The location is blamed exactly when nothing else is wrong.** What is refused is told back as
it was, and the location is blamed when the text is that of a name but for the segments in the place
of the location; these are then told too, and one id in their place makes it a name. The word for
the failure tells whether the location is blamed. -/
theorem location_blamed {s : String} {f : Fault} (h : parse s = .error f) :
    f.name = s ∧
    (∀ location, f.flaw = .badLocation location ↔ ∃ project ids secret token,
      LocationFault project ids secret token ∧ s = located project ids secret token ∧
        location = Text.joinWith '/' ids) ∧
    (∀ project ids secret token, LocationFault project ids secret token →
      s = located project ids secret token → ∀ id, Location.WellFormed id →
        ∃ v, Version.Spells token v ∧
          parse (located project [id] secret token) = .ok ⟨project, some id, secret, v⟩) ∧
    ((∃ location, f.flaw = .badLocation location) →
      (Mount.Cause.name f).kind = "invalid_location") ∧
    ((∀ location, f.flaw ≠ .badLocation location) →
      (Mount.Cause.name f).kind = "invalid_resource_name") := by
  refine ⟨name_of_parse h, fun location => ⟨locationFault_of_parse h, ?_⟩, ?_, ?_, fun hother => ?_⟩
  · rintro ⟨project, ids, secret, token, hfault, rfl, rfl⟩
    rw [parse_of_locationFault hfault] at h
    cases h
    rfl
  · rintro project ids secret token ⟨hproject, hsecret, ⟨v, hversion⟩, -, -⟩ - id hid
    exact ⟨v, hversion, parse_located hproject hsecret hversion hid⟩
  · rintro ⟨location, hflaw⟩
    simp [Mount.Cause.kind, Fault.isLocation, hflaw]
  · have hnot : f.isLocation = false := by
      unfold Fault.isLocation
      split
      · next location hflaw => exact absurd hflaw (hother location)
      · rfl
    simp [Mount.Cause.kind, hnot]

/-- Two segments in the place of the location, of which the second is a word of the grammar. -/
theorem location_blamed_split :
    let s := "projects/p/locations/us/secrets/secrets/s/versions/7"
    let f : Fault := ⟨s, .badLocation "us/secrets"⟩
    parse s = .error f ∧ f.name = s ∧ LocationFault "p" ["us", "secrets"] "s" "7" ∧
      s = located "p" ["us", "secrets"] "s" "7" ∧ f.flaw = .badLocation "us/secrets" ∧
      (∃ v, Version.Spells "7" v ∧
        parse (located "p" ["us"] "s" "7") = .ok ⟨"p", some "us", "s", v⟩) ∧
      (Mount.Cause.name f).kind = "invalid_location" := by
  intro s f
  have hs : parse s = .error f := by decide
  have hlocated : s = located "p" ["us", "secrets"] "s" "7" := by decide
  have hid : Location.WellFormed "us" := Location.isValid_iff.1 (by decide)
  have hfault : LocationFault "p" ["us", "secrets"] "s" "7" := by
    refine ⟨⟨by decide, by decide⟩, ⟨by decide, by decide⟩, ⟨.number 7, ?_⟩, by decide, ?_⟩
    · exact parse_version_iff.1 (by decide)
    · rintro ⟨id, hids, -⟩
      cases hids
  obtain ⟨hname, hblame, hrepair, hkind, -⟩ := location_blamed hs
  have hflaw := (hblame "us/secrets").2 ⟨_, _, _, _, hfault, hlocated, by decide⟩
  exact ⟨hs, hname, hfault, hlocated, hflaw, hrepair _ _ _ _ hfault hlocated _ hid,
    hkind ⟨_, hflaw⟩⟩

end SecretMount.VersionName
