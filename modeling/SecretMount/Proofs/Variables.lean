import SecretMount.Proofs.Environment
import SecretMount.Proofs.Sources

/-!
# Which variables are heeded

A variable that is set to a text is never passed over: either the settings have what its text
denotes, or there are none. A variable is passed over, as if it were not set, exactly when its bytes
are no text.

* `Environment.IsLegible` : the bytes of a variable are text, if it is set;
* `Environment.Heeds` : a value is what a variable denotes, or the default of one that is not set;
  `Environment.heeds_iff` : what is read of the text of a variable heeds the variable when this is
  legible;
* `Environment.number_eq_error` : the variables that should hold a number and do not;
* `FetchSettings.IsRegionList` : the regions in a text, which are those that are read
  (`FetchSettings.isRegionList_iff`);
* `FetchSettings.ofEnvironment_congr` : settings depend on the texts of the variables only;
* `FetchSettings.heeded_iff_legible` : the variables of the settings for requests.
-/

namespace SecretMount

namespace Environment

variable {env : Environment} {name : String}

/-- The bytes of the variable are text, if it is set. -/
def IsLegible (env : Environment) (name : String) : Prop :=
  ∀ bytes, env.values.get? name = some bytes → ∃ text, bytes = Text.encode text

/-- A value is what the text of a variable denotes, or the default if the variable is not set. -/
inductive Heeds {α : Type} (env : Environment) (name : String) (Denotes : String → α → Prop)
    (default : α) : α → Prop
  | unset (h : env.values.get? name = none) : Heeds env name Denotes default default
  | set {text : String} {value : α} (h : env.values.get? name = some (Text.encode text))
      (hvalue : Denotes text value) : Heeds env name Denotes default value

/-! ## Texts of variables -/

theorem text?_eq_some_iff {text : String} :
    env.text? name = some text ↔ env.values.get? name = some (Text.encode text) := by
  rw [text?, Option.bind_eq_some_iff]
  constructor
  · rintro ⟨bytes, hbytes, htext⟩
    rw [hbytes, Text.decode?_eq_some_iff.1 htext]
  · intro h
    exact ⟨_, h, Text.decode?_encode text⟩

theorem text?_eq_none_of_unset (h : env.values.get? name = none) : env.text? name = none := by
  rw [text?, h]
  rfl

theorem isLegible_iff :
    env.IsLegible name ↔ env.values.get? name = none ∨ (env.text? name).isSome = true := by
  rw [Option.isSome_iff_exists]
  constructor
  · intro h
    cases hvalue : env.values.get? name with
    | none => exact Or.inl rfl
    | some bytes =>
      obtain ⟨text, rfl⟩ := h bytes hvalue
      exact Or.inr ⟨text, text?_eq_some_iff.2 hvalue⟩
  · rintro (hunset | ⟨text, htext⟩) bytes hbytes
    · cases hunset.symm.trans hbytes
    · exact ⟨text, Option.some.inj (hbytes.symm.trans (text?_eq_some_iff.1 htext))⟩

instance : Decidable (env.IsLegible name) := decidable_of_iff _ isLegible_iff.symm

theorem text?_eq_none_of_illegible (h : ¬ env.IsLegible name) : env.text? name = none := by
  rw [isLegible_iff, not_or, Option.not_isSome_iff_eq_none] at h
  exact h.2

theorem Heeds.isLegible {α : Type} {Denotes : String → α → Prop} {default value : α}
    (h : env.Heeds name Denotes default value) : env.IsLegible name := by
  cases h with
  | unset hunset => exact isLegible_iff.2 (Or.inl hunset)
  | set hset _ =>
    refine isLegible_iff.2 (Or.inr ?_)
    rw [text?_eq_some_iff.2 hset]
    rfl

/-- What is read of the text of a variable, with a default where there is none, heeds the variable
exactly when this is legible. -/
theorem heeds_iff {α : Type} {Denotes : String → α → Prop} {default value : α}
    (hnone : env.text? name = none → value = default)
    (hsome : ∀ text, env.text? name = some text → Denotes text value) :
    env.Heeds name Denotes default value ↔ env.IsLegible name := by
  refine ⟨Heeds.isLegible, fun h => ?_⟩
  cases hvalue : env.values.get? name with
  | none =>
    rw [hnone (text?_eq_none_of_unset hvalue)]
    exact .unset hvalue
  | some bytes =>
    obtain ⟨text, rfl⟩ := h bytes hvalue
    exact .set hvalue (hsome text (text?_eq_some_iff.2 hvalue))

/-! ## Numbers -/

/-- The text is a numeral of the number, perhaps with blanks around it, and the number has at most
64 bits. -/
def IsNumeral (text : String) (n : Nat) : Prop :=
  Numeral.Spells (Text.trim text) n ∧ n ≤ Numeral.max64

theorem heeds_number_iff {default n : Nat} (h : IsNumber (env.text? name) default n)
    (hmax : n ≤ Numeral.max64) : env.Heeds name IsNumeral default n ↔ env.IsLegible name := by
  apply heeds_iff
  · intro hnone
    rwa [hnone] at h
  · intro text htext
    rw [htext] at h
    exact ⟨h, hmax⟩

/-- A variable is blamed when its text is no numeral of a number of 64 bits. -/
theorem number_eq_error {default : Nat} {f : NumberFault}
    (h : env.number name default = .error f) : f.variableName = name ∧
      ∃ text, env.values.get? name = some (Text.encode text) ∧
        ¬ ∃ n, IsNumeral text n := by
  unfold number at h
  split at h
  · cases h
  · next text htext =>
    obtain ⟨fault, hread, rfl⟩ := mapError_eq_error_iff.1 h
    refine ⟨rfl, text, text?_eq_some_iff.1 htext, ?_⟩
    rintro ⟨n, hn⟩
    cases hread.symm.trans (Numeral.read_eq_ok_iff.2 hn)

end Environment

namespace FetchSettings

/-! ## The settings for requests -/

/-- The list has the regions between the commas of the text, in the order in which they first
come. -/
structure IsRegionList (text : String) (regions : List String) : Prop where
  mem_iff : ∀ r, r ∈ regions ↔ IsItem text r
  ordered : regions.Pairwise fun r r' =>
    ((Text.split ',' text).map Text.trim).idxOf r < ((Text.split ',' text).map Text.trim).idxOf r'

theorem isRegionList_iff {text : String} {regions : List String} :
    IsRegionList text regions ↔ regions = parseRegions text := by
  constructor
  · intro h
    have hmem : ∀ r, r ∈ regions ↔ r ∈ parseRegions text := fun r =>
      (h.mem_iff r).trans mem_parseRegions_iff.symm
    have hperm : regions.Perm (parseRegions text) :=
      (List.perm_ext_iff_of_nodup (nodup_of_pairwise_idxOf h.ordered)
        (nodup_parseRegions text)).2 hmem
    exact hperm.eq_of_pairwise (fun _ _ _ _ hlt hgt => absurd hlt (Nat.lt_asymm hgt)) h.ordered
      (pairwise_parseRegions text)
  · rintro rfl
    exact ⟨fun _ => mem_parseRegions_iff, pairwise_parseRegions text⟩

/-- Environments with the same texts make the same settings. -/
theorem ofEnvironment_congr {env env' : Environment}
    (h : ∀ name, env.text? name = env'.text? name) :
    ofEnvironment env = ofEnvironment env' := by
  unfold ofEnvironment Environment.number
  rw [h, h, h]

/-- There are no settings when a variable has no number where it should. -/
theorem ofEnvironment_eq_error {env : Environment} {f : NumberFault}
    (h : ofEnvironment env = .error f) : ∃ text,
      env.values.get? f.variableName = some (Text.encode text) ∧
        ¬ ∃ n, Environment.IsNumeral text n := by
  unfold ofEnvironment at h
  rcases bind_eq_error_iff.1 h with hslots | ⟨slots, -, h⟩
  · obtain ⟨hname, hfault⟩ := Environment.number_eq_error hslots
    rwa [hname]
  · rcases bind_eq_error_iff.1 h with hseconds | ⟨seconds, -, h⟩
    · obtain ⟨hname, hfault⟩ := Environment.number_eq_error hseconds
      rwa [hname]
    · cases h

/-- **Which variables are heeded.** Where an environment makes settings, each of them is what its
variable denotes, or the default of one that is not set, exactly when this variable is legible.
Where it makes none, a variable is blamed whose text is no numeral of 64 bits. One that is not
legible is passed over: the settings are those without it. -/
theorem heeded_iff_legible (env : Environment) :
    (∀ s, ofEnvironment env = .ok s →
      (env.Heeds "GCP_PROVIDER_REGIONS" IsRegionList [] s.regions ↔
        env.IsLegible "GCP_PROVIDER_REGIONS") ∧
      (env.Heeds "GCP_PROVIDER_MAX_CONCURRENT_FETCHES" Environment.IsNumeral 8
          s.maxConcurrentFetches ↔ env.IsLegible "GCP_PROVIDER_MAX_CONCURRENT_FETCHES") ∧
      (env.Heeds "GCP_PROVIDER_FETCH_TIMEOUT_SECONDS" Environment.IsNumeral 0
          s.fetchTimeoutSeconds ↔ env.IsLegible "GCP_PROVIDER_FETCH_TIMEOUT_SECONDS")) ∧
    (∀ f, ofEnvironment env = .error f → (∃ message, f.refusal = .config message) ∧
      ∃ text, env.values.get? f.variableName = some (Text.encode text) ∧
        ¬ ∃ n, Environment.IsNumeral text n) ∧
    ∀ name, ¬ env.IsLegible name → ∀ env' : Environment, env'.values.get? name = none →
      (∀ other, other ≠ name → env'.values.get? other = env.values.get? other) →
      ofEnvironment env = ofEnvironment env' := by
  refine ⟨fun s hs => ?_, fun f hf => ⟨⟨_, rfl⟩, ofEnvironment_eq_error hf⟩, ?_⟩
  · obtain ⟨hregions, ⟨hslots, hslotsmax⟩, hseconds, hsecondsmax⟩ :=
      ofEnvironment_eq_ok_iff.1 hs
    refine ⟨Environment.heeds_iff (fun hnone => ?_) (fun text htext => ?_),
      Environment.heeds_number_iff hslots hslotsmax,
      Environment.heeds_number_iff hseconds hsecondsmax⟩
    · rw [hregions, hnone]
      rfl
    · rw [hregions, htext]
      exact isRegionList_iff.2 rfl
  · intro name hname env' hunset hothers
    apply ofEnvironment_congr
    intro other
    by_cases h : other = name
    · rw [h, Environment.text?_eq_none_of_illegible hname,
        Environment.text?_eq_none_of_unset hunset]
    · rw [Environment.text?, Environment.text?, hothers other h]

/-- Of three variables the second is no text: the default stands in its place, and the others are
heeded. -/
theorem heeded_iff_legible_second :
    let env : Environment := ⟨.ofList [
      ("GCP_PROVIDER_REGIONS", Text.encode "us-east1, ,us-east1"),
      ("GCP_PROVIDER_MAX_CONCURRENT_FETCHES", [0xFF, 0x31]),
      ("GCP_PROVIDER_FETCH_TIMEOUT_SECONDS", Text.encode " +030")]⟩
    let s : FetchSettings := ⟨["us-east1"], 8, 30⟩
    ofEnvironment env = .ok s ∧
      env.Heeds "GCP_PROVIDER_REGIONS" IsRegionList [] s.regions ∧
      ¬ env.Heeds "GCP_PROVIDER_MAX_CONCURRENT_FETCHES" Environment.IsNumeral 8
        s.maxConcurrentFetches ∧
      env.Heeds "GCP_PROVIDER_FETCH_TIMEOUT_SECONDS" Environment.IsNumeral 0
        s.fetchTimeoutSeconds := by
  intro env s
  have hs : ofEnvironment env = .ok s := by decide +kernel
  obtain ⟨hregions, hslots, hseconds⟩ := (heeded_iff_legible env).1 s hs
  exact ⟨hs, hregions.2 (by decide +kernel), fun h => absurd (hslots.1 h) (by decide +kernel),
    hseconds.2 (by decide +kernel)⟩

/-- Three variables that are no text, all of them passed over. -/
theorem illegible_passed_over :
    let env : Environment := ⟨.ofList [("GCP_PROVIDER_REGIONS", [0xFF]),
      ("GCP_PROVIDER_MAX_CONCURRENT_FETCHES", [0xFF]),
      ("GCP_PROVIDER_FETCH_TIMEOUT_SECONDS", [0xFF])]⟩
    ofEnvironment env = .ok standard ∧
      ¬ env.Heeds "GCP_PROVIDER_REGIONS" IsRegionList [] standard.regions ∧
      ¬ env.Heeds "GCP_PROVIDER_MAX_CONCURRENT_FETCHES" Environment.IsNumeral 8
        standard.maxConcurrentFetches ∧
      ¬ env.Heeds "GCP_PROVIDER_FETCH_TIMEOUT_SECONDS" Environment.IsNumeral 0
        standard.fetchTimeoutSeconds := by
  intro env
  exact ⟨by decide +kernel, fun h => absurd h.isLegible (by decide +kernel),
    fun h => absurd h.isLegible (by decide +kernel),
    fun h => absurd h.isLegible (by decide +kernel)⟩

end FetchSettings

end SecretMount
