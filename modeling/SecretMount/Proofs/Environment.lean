import Mathlib.Data.List.Induction
import SecretMount.Proofs.Grammar
import SecretMount.Proofs.Utf8
import SecretMount.Settings.Environment

/-!
# Which settings are accepted

* `Numeral.Spells`, `Numeral.read_eq_ok_iff` : the numerals of a number, which are all that is read
  as the number;
* `IsItem`, `mem_parseRegions_iff`, `pairwise_parseRegions` : the items of a list of regions, each
  of which is kept where it first comes;
* `Settings.Allowed`, `Settings.validate_eq_ok_iff` : the settings that are allowed;
* `Variables`, `Environment.Sets` : the texts of the variables that are set;
* `Variables.Denotes`, `Settings.ofEnvironment_eq_ok_iff` : the settings that they stand for, which
  are accepted if they are allowed;
* `Settings.accepted_in_force` : the variables that make up settings, and what these mean for
  requests.
-/

namespace SecretMount

/-! ## Numerals -/

namespace Numeral

/-- `s` is a decimal numeral of `n`, with or without a plus sign and with any zeros in front. -/
def Spells (s : String) (n : Nat) : Prop :=
  ∃ digits : List Char, digits ≠ [] ∧ (∀ c ∈ digits, c.isDigit = true) ∧
    Nat.ofDigitChars 10 digits 0 = n ∧ (s.toList = digits ∨ s.toList = '+' :: digits)

theorem isDigit_of_digitBelow? {c : Char} {d : Nat} (h : digitBelow? 10 c = some d) :
    c.isDigit = true := by
  have ha : 'a'.toNat = 97 := rfl
  have hA : 'A'.toNat = 65 := rfl
  obtain ⟨hdigit, hlt⟩ := Option.filter_eq_some_iff.1 h
  rw [decide_eq_true_eq] at hlt
  unfold digit? at hdigit
  split at hdigit
  · next hc => exact hc
  · split at hdigit
    · next hletter =>
      have hle : 'a'.toNat ≤ c.toNat := hletter.1
      cases hdigit
      omega
    · split at hdigit
      · next hletter =>
        have hle : 'A'.toNat ≤ c.toNat := hletter.1
        cases hdigit
        omega
      · cases hdigit

/-- What is read as a number are its digits. -/
theorem isDigit_of_extend {bound : Nat} : ∀ {cs : List Char} {value n : Nat},
    extend 10 bound value cs = .ok n →
      (∀ c ∈ cs, c.isDigit = true) ∧ Nat.ofDigitChars 10 cs value = n
  | [], value, n, h => by
    cases h
    exact ⟨by simp, rfl⟩
  | c :: cs, value, n, h => by
    have h0 : '0'.toNat = 48 := rfl
    unfold extend at h
    split at h
    · cases h
    · next d hd =>
      have hc := isDigit_of_digitBelow? hd
      rw [digitBelow?_of_isDigit hc] at hd
      cases hd
      split at h
      · cases h
      · obtain ⟨hcs, hvalue⟩ := isDigit_of_extend h
        refine ⟨List.forall_mem_cons.2 ⟨hc, hcs⟩, ?_⟩
        rw [Nat.ofDigitChars_cons, h0, Nat.mul_comm]
        exact hvalue

/-- **What is read as a number are its numerals.** -/
theorem read_eq_ok_iff {bound n : Nat} {s : String} :
    read bound s = .ok n ↔ Spells s n ∧ n ≤ bound := by
  constructor
  · intro h
    refine ⟨?_, le_of_read h⟩
    unfold read readChars at h
    split at h
    · cases h
    · cases h
    · cases h
    · next ds hne hs =>
      obtain ⟨hds, hvalue⟩ := isDigit_of_extend h
      refine ⟨ds, ?_, hds, hvalue, Or.inr hs⟩
      rintro rfl
      exact hne rfl
    · next hne _ _ _ =>
      obtain ⟨hds, hvalue⟩ := isDigit_of_extend h
      exact ⟨s.toList, hne, hds, hvalue, Or.inl rfl⟩
  · rintro ⟨⟨ds, hne, hds, rfl, hs⟩, hle⟩
    have hextend := extend_of_isDigit hds hle
    obtain ⟨c, cs, rfl⟩ := List.exists_cons_of_ne_nil hne
    rcases hs with hs | hs
    · rw [read, hs, readChars_of_isDigit (hds c List.mem_cons_self), hextend]
    · rw [read, hs]
      exact hextend

end Numeral

/-! ## Regions -/

/-- `r` stands between commas of `list`, without blanks around it. What is all blank does not
count. -/
def IsItem (list r : String) : Prop := r ≠ "" ∧ ∃ piece ∈ Text.split ',' list, Text.trim piece = r

theorem distinct_concat (l : List String) (t : String) :
    distinct (l ++ [t]) = if t ∈ distinct l then distinct l else distinct l ++ [t] := by
  rw [distinct, List.foldl_append]
  simp only [distinct, List.foldl_cons, List.foldl_nil, List.contains_iff_mem]

theorem mem_distinct_iff {l : List String} {s : String} : s ∈ distinct l ↔ s ∈ l := by
  induction l using List.reverseRecOn with
  | nil => rfl
  | append_singleton l t ih =>
    rw [distinct_concat, List.mem_append, List.mem_singleton]
    split
    · next ht =>
      rw [ih, or_iff_left_of_imp]
      rintro rfl
      exact ih.1 ht
    · rw [List.mem_append, List.mem_singleton, ih]

/-- What is kept of a list stands in the order of where it stands first there. -/
theorem pairwise_distinct_filter (p : String → Bool) (l : List String) :
    (distinct (l.filter p)).Pairwise fun s s' => l.idxOf s < l.idxOf s' := by
  induction l using List.reverseRecOn with
  | nil => exact .nil
  | append_singleton l t ih =>
    have hmem : ∀ {s}, s ∈ distinct (l.filter p) → s ∈ l := fun hs =>
      (List.mem_filter.1 (mem_distinct_iff.1 hs)).1
    -- a text at the end moves no text that was there
    have hkept : (distinct (l.filter p)).Pairwise
        fun s s' => (l ++ [t]).idxOf s < (l ++ [t]).idxOf s' := by
      refine ih.imp_of_mem fun hs hs' h => ?_
      rwa [List.idxOf_append_of_mem (hmem hs), List.idxOf_append_of_mem (hmem hs')]
    rw [List.filter_append]
    by_cases ht : p t = true
    · rw [List.filter_cons_of_pos ht, List.filter_nil, distinct_concat]
      split
      · exact hkept
      · next hnew =>
        have hlast : t ∉ l := fun h => hnew (mem_distinct_iff.2 (List.mem_filter.2 ⟨h, ht⟩))
        refine List.pairwise_append.2 ⟨hkept, List.pairwise_singleton _ _, fun s hs s' hs' => ?_⟩
        rw [List.mem_singleton.1 hs', List.idxOf_append_of_mem (hmem hs),
          List.idxOf_append_of_notMem hlast]
        exact Nat.lt_add_right _ (List.idxOf_lt_length_of_mem (hmem hs))
    · rw [List.filter_cons_of_neg ht, List.filter_nil, List.append_nil]
      exact hkept

/-- Regions stand in the order in which they first come. -/
theorem pairwise_parseRegions (list : String) :
    let pieces := (Text.split ',' list).map Text.trim
    (parseRegions list).Pairwise fun r r' => pieces.idxOf r < pieces.idxOf r' :=
  pairwise_distinct_filter _ _

theorem nodup_of_pairwise_idxOf {l pieces : List String}
    (h : l.Pairwise fun r r' => pieces.idxOf r < pieces.idxOf r') : l.Nodup := by
  refine h.imp fun hlt heq => ?_
  rw [heq] at hlt
  exact Nat.lt_irrefl _ hlt

theorem nodup_parseRegions (list : String) : (parseRegions list).Nodup :=
  nodup_of_pairwise_idxOf (pairwise_parseRegions list)

theorem mem_parseRegions_iff {list r : String} : r ∈ parseRegions list ↔ IsItem list r := by
  rw [parseRegions, mem_distinct_iff, List.mem_filter, List.mem_map, IsItem, and_comm]
  simp

/-! ## Settings -/

/-- The settings that are allowed. -/
structure Settings.Allowed (s : Settings) : Prop where
  one_le_maxConcurrentFetches : 1 ≤ s.fetch.maxConcurrentFetches
  maxConcurrentFetches_le : s.fetch.maxConcurrentFetches ≤ 256
  fetchTimeoutSeconds_le : s.fetch.fetchTimeoutSeconds ≤ 600
  serviceName_ne : s.logging.serviceName ≠ ""
  logLevel_ne : s.logging.logLevel ≠ ""
  regions : ∀ r ∈ s.fetch.regions, Location.WellFormed r

namespace FetchSettings

theorem violations_eq_nil_iff {s : FetchSettings} : s.violations = [] ↔
    1 ≤ s.maxConcurrentFetches ∧ s.maxConcurrentFetches ≤ 256 ∧ s.fetchTimeoutSeconds ≤ 600 := by
  unfold violations
  rw [List.append_eq_nil_iff, ite_eq_left_iff, ite_eq_left_iff]
  constructor
  · rintro ⟨htimeout, hbounds⟩
    obtain ⟨hlow, hhigh⟩ := by_contra fun h => List.cons_ne_nil _ _ (hbounds h)
    exact ⟨hlow, hhigh, by_contra fun h => List.cons_ne_nil _ _ (htimeout h)⟩
  · rintro ⟨hlow, hhigh, htimeout⟩
    exact ⟨fun h => absurd htimeout h, fun h => absurd ⟨hlow, hhigh⟩ h⟩

theorem timeout_eq_none_iff (s : FetchSettings) :
    s.timeout = none ↔ s.fetchTimeoutSeconds = 0 := by
  rw [timeout, ite_eq_left_iff]
  exact ⟨fun h => by_contra fun hne => (nomatch h hne), fun h hne => absurd h hne⟩

theorem eq_seconds_of_mem_timeout (s : FetchSettings) {t : Nat} (h : t ∈ s.timeout) :
    t = Duration.seconds s.fetchTimeoutSeconds := by
  unfold timeout at h
  split at h
  · cases h
  · cases h
    rfl

end FetchSettings

theorem LogSettings.violations_eq_nil_iff {s : LogSettings} :
    s.violations = [] ↔ s.serviceName ≠ "" ∧ s.logLevel ≠ "" := by
  unfold violations
  by_cases hname : s.serviceName = "" <;> by_cases hlevel : s.logLevel = "" <;>
    simp [hname, hlevel]

namespace Settings

/-- **Settings are valid exactly when they are allowed.** -/
theorem validate_eq_ok_iff {s : Settings} : s.validate = .ok () ↔ s.Allowed := by
  unfold validate
  constructor
  · intro h
    split at h
    · cases h
    · next hviolations =>
      rw [Bool.or_eq_true, not_or, Bool.not_eq_true', Bool.not_eq_true', Bool.not_eq_false,
        Bool.not_eq_false, List.isEmpty_iff, List.isEmpty_iff,
        FetchSettings.violations_eq_nil_iff, LogSettings.violations_eq_nil_iff] at hviolations
      obtain ⟨⟨hlow, hhigh, htimeout⟩, hname, hlevel⟩ := hviolations
      split at h
      · cases h
      · next hregions =>
        refine ⟨hlow, hhigh, htimeout, hname, hlevel, fun r hr => Location.isValid_iff.1 ?_⟩
        simpa using List.find?_eq_none.1 hregions r hr
  · intro h
    have hfetch : s.fetch.violations = [] := FetchSettings.violations_eq_nil_iff.2
      ⟨h.one_le_maxConcurrentFetches, h.maxConcurrentFetches_le, h.fetchTimeoutSeconds_le⟩
    have hlogging : s.logging.violations = [] :=
      LogSettings.violations_eq_nil_iff.2 ⟨h.serviceName_ne, h.logLevel_ne⟩
    have hregions : s.fetch.regions.find? (!Location.isValid ·) = none :=
      List.find?_eq_none.2 fun r hr => by simp [Location.isValid_iff.2 (h.regions r hr)]
    rw [hfetch, hlogging, hregions]
    rfl

end Settings

/-! ## Variables -/

/-- The texts of the variables that are set. -/
structure Variables where
  regions : Option String
  maxConcurrentFetches : Option String
  fetchTimeoutSeconds : Option String
  serviceName : Option String
  logLevel : Option String
  jsonLogging : Option String

namespace Environment

/-- The variable is not set, or it is set to this text. -/
def Holds (env : Environment) (name : String) (text : Option String) : Prop :=
  env.values.get? name = text.map Text.encode

theorem Holds.text?_eq {env : Environment} {name : String} {text : Option String}
    (h : env.Holds name text) : env.text? name = text := by
  rw [text?, h]
  cases text with
  | none => rfl
  | some s => exact Text.decode?_encode s

/-- The environment has these variables. -/
structure Sets (env : Environment) (v : Variables) : Prop where
  regions : env.Holds "GCP_PROVIDER_REGIONS" v.regions
  maxConcurrentFetches : env.Holds "GCP_PROVIDER_MAX_CONCURRENT_FETCHES" v.maxConcurrentFetches
  fetchTimeoutSeconds : env.Holds "GCP_PROVIDER_FETCH_TIMEOUT_SECONDS" v.fetchTimeoutSeconds
  serviceName : env.Holds "GCP_PROVIDER_SERVICE_NAME" v.serviceName
  logLevel : env.Holds "GCP_PROVIDER_LOG_LEVEL" v.logLevel
  jsonLogging : env.Holds "GCP_PROVIDER_JSON_LOGGING" v.jsonLogging

end Environment

/-- `n` is the number in a variable, or `default` if the variable is not set. -/
def IsNumber (text : Option String) (default n : Nat) : Prop :=
  match text with
  | none => n = default
  | some s => Numeral.Spells (Text.trim s) n

namespace Variables

/-- The settings for which the variables stand, allowed or not. -/
structure Denotes (v : Variables) (s : Settings) : Prop where
  regions : s.fetch.regions = (v.regions.map parseRegions).getD []
  maxConcurrentFetches : IsNumber v.maxConcurrentFetches 8 s.fetch.maxConcurrentFetches
  fetchTimeoutSeconds : IsNumber v.fetchTimeoutSeconds 0 s.fetch.fetchTimeoutSeconds
  serviceName : s.logging.serviceName = v.serviceName.getD programName
  logLevel : s.logging.logLevel = v.logLevel.getD "info"
  jsonLogging : s.logging.jsonLogging = (v.jsonLogging.map isOn).getD false

/-- The variables that make up settings which are allowed. -/
structure Acceptable (v : Variables) : Prop where
  regions : ∀ list ∈ v.regions, ∀ r, IsItem list r → Location.WellFormed r
  maxConcurrentFetches : ∀ text ∈ v.maxConcurrentFetches,
    ∃ n, Numeral.Spells (Text.trim text) n ∧ 1 ≤ n ∧ n ≤ 256
  fetchTimeoutSeconds : ∀ text ∈ v.fetchTimeoutSeconds,
    ∃ n, Numeral.Spells (Text.trim text) n ∧ n ≤ 600
  serviceName : v.serviceName ≠ some ""
  logLevel : v.logLevel ≠ some ""

end Variables

/-! ## Settings from variables -/

/-- The number in a variable is read as long as it has at most 64 bits. -/
theorem Environment.number_eq_ok_iff {env : Environment} {name : String} {default n : Nat}
    (hdefault : default ≤ Numeral.max64) :
    env.number name default = .ok n ↔ IsNumber (env.text? name) default n ∧ n ≤ Numeral.max64 := by
  unfold number
  cases env.text? name with
  | none =>
    constructor
    · rintro ⟨⟩
      exact ⟨rfl, hdefault⟩
    · rintro ⟨rfl, -⟩
      rfl
  | some s => rw [mapError_eq_ok_iff, Numeral.read_eq_ok_iff, IsNumber]

theorem FetchSettings.ofEnvironment_eq_ok_iff {env : Environment} {s : FetchSettings} :
    ofEnvironment env = .ok s ↔
      s.regions = ((env.text? "GCP_PROVIDER_REGIONS").map parseRegions).getD [] ∧
      (IsNumber (env.text? "GCP_PROVIDER_MAX_CONCURRENT_FETCHES") 8 s.maxConcurrentFetches ∧
        s.maxConcurrentFetches ≤ Numeral.max64) ∧
      (IsNumber (env.text? "GCP_PROVIDER_FETCH_TIMEOUT_SECONDS") 0 s.fetchTimeoutSeconds ∧
        s.fetchTimeoutSeconds ≤ Numeral.max64) := by
  rw [← Environment.number_eq_ok_iff (by decide), ← Environment.number_eq_ok_iff (by decide)]
  unfold ofEnvironment
  rw [bind_eq_ok_iff]
  constructor
  · rintro ⟨slots, hslots, hrest⟩
    obtain ⟨seconds, hseconds, hs⟩ := bind_eq_ok_iff.1 hrest
    cases hs
    exact ⟨rfl, hslots, hseconds⟩
  · rintro ⟨hregions, hslots, hseconds⟩
    refine ⟨_, hslots, bind_eq_ok_iff.2 ⟨_, hseconds, ?_⟩⟩
    rw [← hregions]
    rfl

theorem Environment.Sets.fetch_eq_ok_iff {env : Environment} {v : Variables} {s : FetchSettings}
    (h : env.Sets v) : FetchSettings.ofEnvironment env = .ok s ↔
      s.regions = (v.regions.map parseRegions).getD [] ∧
      (IsNumber v.maxConcurrentFetches 8 s.maxConcurrentFetches ∧
        s.maxConcurrentFetches ≤ Numeral.max64) ∧
      (IsNumber v.fetchTimeoutSeconds 0 s.fetchTimeoutSeconds ∧
        s.fetchTimeoutSeconds ≤ Numeral.max64) := by
  rw [FetchSettings.ofEnvironment_eq_ok_iff, h.regions.text?_eq, h.maxConcurrentFetches.text?_eq,
    h.fetchTimeoutSeconds.text?_eq]

theorem LogSettings.ofEnvironment_eq_iff {env : Environment} {v : Variables} {s : LogSettings}
    (h : env.Sets v) : ofEnvironment env = s ↔
      s.serviceName = v.serviceName.getD programName ∧ s.logLevel = v.logLevel.getD "info" ∧
        s.jsonLogging = (v.jsonLogging.map isOn).getD false := by
  unfold ofEnvironment
  rw [h.serviceName.text?_eq, h.logLevel.text?_eq, h.jsonLogging.text?_eq]
  constructor
  · rintro rfl
    exact ⟨rfl, rfl, rfl⟩
  · rintro ⟨hname, hlevel, hjson⟩
    obtain ⟨serviceName, logLevel, jsonLogging⟩ := s
    subst hname hlevel hjson
    rfl

namespace Settings

variable {env : Environment} {v : Variables} {s : Settings}

/-- **The settings that an environment makes are those for which its variables stand, if they are
allowed.** -/
theorem ofEnvironment_eq_ok_iff (h : env.Sets v) :
    ofEnvironment env = .ok s ↔ v.Denotes s ∧ s.Allowed := by
  unfold ofEnvironment
  rw [bind_eq_ok_iff]
  constructor
  · rintro ⟨fetch, hfetch, hrest⟩
    obtain ⟨_, hvalid, hs⟩ := bind_eq_ok_iff.1 hrest
    cases hs
    rw [mapError_eq_ok_iff, h.fetch_eq_ok_iff] at hfetch
    obtain ⟨hregions, ⟨hslots, -⟩, hseconds, -⟩ := hfetch
    obtain ⟨hname, hlevel, hjson⟩ := (LogSettings.ofEnvironment_eq_iff h).1 rfl
    exact ⟨⟨hregions, hslots, hseconds, hname, hlevel, hjson⟩, validate_eq_ok_iff.1 hvalid⟩
  · rintro ⟨hdenotes, hallowed⟩
    have hslots : s.fetch.maxConcurrentFetches ≤ Numeral.max64 :=
      hallowed.maxConcurrentFetches_le.trans (by decide)
    have hseconds : s.fetch.fetchTimeoutSeconds ≤ Numeral.max64 :=
      hallowed.fetchTimeoutSeconds_le.trans (by decide)
    have hfetch : FetchSettings.ofEnvironment env = .ok s.fetch :=
      h.fetch_eq_ok_iff.2 ⟨hdenotes.regions,
        ⟨hdenotes.maxConcurrentFetches, hslots⟩, hdenotes.fetchTimeoutSeconds, hseconds⟩
    have hlogging : LogSettings.ofEnvironment env = s.logging :=
      (LogSettings.ofEnvironment_eq_iff h).2
        ⟨hdenotes.serviceName, hdenotes.logLevel, hdenotes.jsonLogging⟩
    refine ⟨s.fetch, mapError_eq_ok_iff.2 hfetch, ?_⟩
    rw [hlogging]
    exact bind_eq_ok_iff.2 ⟨(), validate_eq_ok_iff.2 hallowed, rfl⟩

/-! ## What is accepted -/

/-- A variable has a number with `P`, which the default has, if no other is in its text. -/
theorem exists_isNumber_iff {text : Option String} {default : Nat} {P : Nat → Prop}
    (h : P default) : (∃ n, IsNumber text default n ∧ P n) ↔
      ∀ t ∈ text, ∃ n, Numeral.Spells (Text.trim t) n ∧ P n := by
  cases text with
  | none => exact ⟨fun _ _ ht => (nomatch ht), fun _ => ⟨default, rfl, h⟩⟩
  | some s =>
    constructor
    · rintro hn t ⟨⟩
      exact hn
    · exact fun h => h s rfl

theorem getD_ne_empty_iff {text : Option String} {default : String} (h : default ≠ "") :
    text.getD default ≠ "" ↔ text ≠ some "" := by
  cases text with
  | none => exact ⟨fun _ => nofun, fun _ => h⟩
  | some s => rw [Option.getD_some, Ne, Ne, Option.some_inj]

theorem mem_regions_iff {list : Option String} {r : String} :
    r ∈ (list.map parseRegions).getD [] ↔ ∃ l ∈ list, IsItem l r := by
  cases list with
  | none => exact ⟨fun hr => (nomatch hr), fun ⟨_, hl, _⟩ => (nomatch hl)⟩
  | some l =>
    constructor
    · exact fun hr => ⟨l, rfl, mem_parseRegions_iff.1 hr⟩
    · rintro ⟨_, ⟨⟩, hr⟩
      exact mem_parseRegions_iff.2 hr

/-- The variables stand for settings that are allowed when each of them is acceptable. -/
theorem exists_denotes_iff : (∃ s, v.Denotes s ∧ s.Allowed) ↔ v.Acceptable := by
  constructor
  · rintro ⟨s, hdenotes, hallowed⟩
    refine ⟨?_, ?_, ?_, ?_, ?_⟩
    · intro list hlist r hr
      refine hallowed.regions r ?_
      rw [hdenotes.regions]
      exact mem_regions_iff.2 ⟨list, hlist, hr⟩
    · exact (exists_isNumber_iff ⟨by decide, by decide⟩).1 ⟨_, hdenotes.maxConcurrentFetches,
        hallowed.one_le_maxConcurrentFetches, hallowed.maxConcurrentFetches_le⟩
    · exact (exists_isNumber_iff (by decide)).1
        ⟨_, hdenotes.fetchTimeoutSeconds, hallowed.fetchTimeoutSeconds_le⟩
    · rw [← getD_ne_empty_iff (show programName ≠ "" by decide), ← hdenotes.serviceName]
      exact hallowed.serviceName_ne
    · rw [← getD_ne_empty_iff (show "info" ≠ "" by decide), ← hdenotes.logLevel]
      exact hallowed.logLevel_ne
  · intro h
    have hstandard : 1 ≤ 8 ∧ 8 ≤ 256 := by decide
    obtain ⟨slots, hslots, hlow, hhigh⟩ :=
      (exists_isNumber_iff (P := fun n => 1 ≤ n ∧ n ≤ 256) hstandard).2 h.maxConcurrentFetches
    obtain ⟨seconds, hseconds, hmost⟩ :=
      (exists_isNumber_iff (P := (· ≤ 600)) (Nat.zero_le 600)).2 h.fetchTimeoutSeconds
    have hregions : ∀ r ∈ (v.regions.map parseRegions).getD [], Location.WellFormed r := by
      intro r hr
      obtain ⟨list, hlist, hitem⟩ := mem_regions_iff.1 hr
      exact h.regions list hlist r hitem
    exact ⟨⟨⟨_, slots, seconds⟩, ⟨_, _, _⟩⟩, ⟨rfl, hslots, hseconds, rfl, rfl, rfl⟩, hlow, hhigh,
      hmost, (getD_ne_empty_iff (by decide)).2 h.serviceName,
      (getD_ne_empty_iff (by decide)).2 h.logLevel, hregions⟩

/-- **An environment makes settings exactly when its variables are acceptable. The settings are
then the ones for which the variables stand, with each region once, and they hold for requests as
they are: a request has as many slots as they say, and an access takes at most as many seconds,
unless these are zero. Settings are valid exactly when they are allowed.** -/
theorem accepted_in_force :
    (∀ (env : Environment) (v : Variables), env.Sets v →
      ((∃ s, ofEnvironment env = .ok s) ↔ v.Acceptable)) ∧
    (∀ (env : Environment) (v : Variables) (s : Settings), env.Sets v →
      ofEnvironment env = .ok s →
        v.Denotes s ∧ (∀ r, r ∈ s.fetch.regions ↔ ∃ list ∈ v.regions, IsItem list r) ∧
        s.fetch.regions.Nodup ∧ s.validate = .ok () ∧
        s.fetch.limits.slots = s.fetch.maxConcurrentFetches ∧
        (s.fetch.limits.timeout = none ↔ s.fetch.fetchTimeoutSeconds = 0) ∧
        ∀ t ∈ s.fetch.limits.timeout, t = Duration.seconds s.fetch.fetchTimeoutSeconds) ∧
    ∀ s : Settings, s.validate = .ok () ↔ s.Allowed := by
  refine ⟨fun env v h => ?_, fun env v s h hs => ?_, fun s => validate_eq_ok_iff⟩
  · simp only [ofEnvironment_eq_ok_iff h, exists_denotes_iff]
  · obtain ⟨hdenotes, hallowed⟩ := (ofEnvironment_eq_ok_iff h).1 hs
    have hnodup : s.fetch.regions.Nodup := by
      rw [hdenotes.regions]
      cases v.regions with
      | none => exact .nil
      | some list => exact nodup_parseRegions list
    have hslots : s.fetch.limits.slots = s.fetch.maxConcurrentFetches :=
      max_eq_right hallowed.one_le_maxConcurrentFetches
    have hregions : ∀ r, r ∈ s.fetch.regions ↔ ∃ list ∈ v.regions, IsItem list r := by
      rw [hdenotes.regions]
      exact fun r => mem_regions_iff
    exact ⟨hdenotes, hregions, hnodup, validate_eq_ok_iff.2 hallowed, hslots,
      s.fetch.timeout_eq_none_iff, fun t => s.fetch.eq_seconds_of_mem_timeout⟩

/-- Two regions, one of them twice, and a signed number. -/
theorem accepted_in_force_signed :
    let env : Environment := ⟨.ofList [
      ("GCP_PROVIDER_REGIONS", Text.encode "us-east1, europe-west3,,us-east1"),
      ("GCP_PROVIDER_MAX_CONCURRENT_FETCHES", Text.encode " +08\n")]⟩
    let v : Variables :=
      ⟨some "us-east1, europe-west3,,us-east1", some " +08\n", none, none, none, none⟩
    env.Sets v ∧ v.Acceptable ∧ ∃ s, ofEnvironment env = .ok s ∧ v.Denotes s := by
  intro env v
  have hsets : env.Sets v := by
    constructor <;> exact (Table.get?_ofList _ _).trans (by decide)
  have hvalid : ∀ r ∈ parseRegions "us-east1, europe-west3,,us-east1",
      Location.isValid r = true := by decide
  have hacceptable : v.Acceptable := by
    refine ⟨?_, ?_, nofun, nofun, nofun⟩
    · rintro list ⟨⟩ r hr
      exact Location.isValid_iff.1 (hvalid r (mem_parseRegions_iff.2 hr))
    · rintro text ⟨⟩
      have hspells : Numeral.Spells (Text.trim " +08\n") 8 :=
        ⟨['0', '8'], by decide, by simp, by decide, by decide⟩
      exact ⟨8, hspells, by decide⟩
  obtain ⟨s, hs⟩ := (accepted_in_force.1 env v hsets).2 hacceptable
  exact ⟨hsets, hacceptable, s, hs, (accepted_in_force.2.1 env v s hsets hs).1⟩

end Settings

end SecretMount
