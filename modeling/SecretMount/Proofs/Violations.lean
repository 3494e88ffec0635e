import SecretMount.Proofs.Environment
import SecretMount.Proofs.Wording

/-!
# What is told about settings that are not allowed

Each section on its own tells all its violations, every one by its field and by the message that is
declared for it. Settings as a whole are refused without a word about what is wrong in a section.

* `FetchSettings.Violates`, `LogSettings.Violates`, `Settings.Violates` : the constraints that
  settings declare, with what is to be told when one of them is violated;
  `FetchSettings.mem_violations_iff`, `LogSettings.mem_violations_iff` : these are what is found;
* `Refusal.Tells` : a violation can be read off a refusal; `Violation.tells_refusal` : off that of
  any violations among which it is;
* `Settings.validate_of_violates` : the refusal of settings with any violation;
* `Settings.violations_told_iff` : when the violations are told, and by which part of the settings.
-/

namespace SecretMount

/-- The text of a refusal has the field and the message of a violation. -/
def Refusal.Tells (r : Refusal) (v : Violation) : Prop :=
  Text.Mentions r.message v.field ∧ Text.Mentions r.message v.message

/-! ## Lists of violations -/

namespace Violation

theorem mentions_field (v : Violation) : Text.Mentions v.text v.field := by
  rw [text, String.append_assoc]
  exact Text.mentions_append_left _ List.infix_rfl

theorem mentions_message (v : Violation) : Text.Mentions v.text v.message :=
  Text.mentions_append_right _ List.infix_rfl

theorem refusal_nil : refusal [] = .validation "Validation failed: " none := by
  simp [refusal]

/-- Each of the violations that are reported together is told. -/
theorem tells_refusal {l : List Violation} {v : Violation} (h : v ∈ l) : (refusal l).Tells v := by
  have htext : Text.Mentions (refusal l).message v.text := by
    apply Text.mentions_append_right
    apply Text.mentions_append_right
    exact Text.mentions_intercalate (List.mem_map_of_mem h)
  exact ⟨htext.trans v.mentions_field, htext.trans v.mentions_message⟩

/-- A section with a violation is refused, and told to have it. -/
theorem exists_tells {l : List Violation} {v : Violation} (h : v ∈ l) :
    ∃ r, (if l.isEmpty then .ok () else .error (refusal l) : Except Refusal Unit) = .error r ∧
      r.Tells v := by
  have hne : l.isEmpty = false := by
    rw [List.isEmpty_eq_false_iff]
    exact List.ne_nil_of_mem h
  exact ⟨refusal l, by simp [hne], tells_refusal h⟩

end Violation

/-! ## Constraints -/

/-- What the section for requests declares. -/
inductive FetchSettings.Violates (s : FetchSettings) : Violation → Prop
  | slots (h : s.maxConcurrentFetches < 1 ∨ 256 < s.maxConcurrentFetches) :
      Violates s ⟨"max_concurrent_fetches", "Max concurrent fetches must be between 1 and 256"⟩
  | seconds (h : 600 < s.fetchTimeoutSeconds) :
      Violates s ⟨"fetch_timeout_seconds", "Fetch timeout must be at most 600 seconds"⟩

/-- What the section for logs declares. -/
inductive LogSettings.Violates (s : LogSettings) : Violation → Prop
  | name (h : s.serviceName = "") : Violates s ⟨"service_name", "Service name cannot be empty"⟩
  | level (h : s.logLevel = "") : Violates s ⟨"log_level", "Log level cannot be empty"⟩

/-- What both sections declare. -/
inductive Settings.Violates (s : Settings) : Violation → Prop
  | fetch {v : Violation} (h : s.fetch.Violates v) : Violates s v
  | logging {v : Violation} (h : s.logging.Violates v) : Violates s v

theorem FetchSettings.mem_violations_iff {s : FetchSettings} {v : Violation} :
    v ∈ s.violations ↔ s.Violates v := by
  unfold violations
  rw [List.mem_append]
  constructor
  · rintro (h | h)
    · split at h
      · cases h
      · next htimeout =>
        rw [List.mem_singleton.1 h]
        exact .seconds (by omega)
    · split at h
      · cases h
      · next hbounds =>
        rw [List.mem_singleton.1 h]
        exact .slots (by omega)
  · intro h
    cases h with
    | slots h =>
      rw [if_neg (show ¬ (1 ≤ s.maxConcurrentFetches ∧ s.maxConcurrentFetches ≤ 256) by omega)]
      exact Or.inr (List.mem_singleton_self _)
    | seconds h =>
      rw [if_neg (show ¬ s.fetchTimeoutSeconds ≤ 600 by omega)]
      exact Or.inl (List.mem_singleton_self _)

theorem LogSettings.mem_violations_iff {s : LogSettings} {v : Violation} :
    v ∈ s.violations ↔ s.Violates v := by
  unfold violations
  rw [List.mem_append]
  constructor
  · rintro (h | h)
    · split at h
      · next hlevel =>
        rw [List.mem_singleton.1 h]
        exact .level (String.isEmpty_iff.1 hlevel)
      · cases h
    · split at h
      · next hname =>
        rw [List.mem_singleton.1 h]
        exact .name (String.isEmpty_iff.1 hname)
      · cases h
  · intro h
    cases h with
    | name h =>
      rw [if_pos (String.isEmpty_iff.2 h)]
      exact Or.inr (List.mem_singleton_self _)
    | level h =>
      rw [if_pos (String.isEmpty_iff.2 h)]
      exact Or.inl (List.mem_singleton_self _)

namespace Settings

/-! ## Settings as a whole -/

theorem validate_of_violates {s : Settings} {v : Violation} (h : s.Violates v) :
    s.validate = .error (.validation "Validation failed: " none) := by
  have hfound : (!s.fetch.violations.isEmpty || !s.logging.violations.isEmpty) = true := by
    rw [Bool.or_eq_true, Bool.not_eq_true', Bool.not_eq_true', List.isEmpty_eq_false_iff,
      List.isEmpty_eq_false_iff]
    cases h with
    | fetch h => exact Or.inl (List.ne_nil_of_mem (FetchSettings.mem_violations_iff.2 h))
    | logging h => exact Or.inr (List.ne_nil_of_mem (LogSettings.mem_violations_iff.2 h))
  unfold validate
  rw [if_pos hfound, Violation.refusal_nil]

/-- Neither the field nor the message of a constraint is in the words in front of violations. -/
theorem not_mentions_of_violates {s : Settings} {v : Violation} (h : s.Violates v) :
    ¬ Text.Mentions (Refusal.validation "Validation failed: " none).message v.field ∧
      ¬ Text.Mentions (Refusal.validation "Validation failed: " none).message v.message := by
  cases h with
  | fetch h =>
    cases h with
    | slots _ => exact ⟨by decide +kernel, by decide +kernel⟩
    | seconds _ => exact ⟨by decide +kernel, by decide +kernel⟩
  | logging h =>
    cases h with
    | name _ => exact ⟨by decide +kernel, by decide +kernel⟩
    | level _ => exact ⟨by decide +kernel, by decide +kernel⟩

/-- **When the violations are told.** Settings are refused with every violation told only when
there is none. Any violation has them refused, with neither its field nor its message in the text.
The section with the violation, validated on its own, is refused with both in the text. -/
theorem violations_told_iff (s : Settings) :
    ((∀ v, s.Violates v → ∃ r, s.validate = .error r ∧ r.Tells v) ↔ ¬ ∃ v, s.Violates v) ∧
    (∀ v, s.Violates v → s.validate = .error (.validation "Validation failed: " none) ∧
      ¬ Text.Mentions (Refusal.validation "Validation failed: " none).message v.field ∧
      ¬ Text.Mentions (Refusal.validation "Validation failed: " none).message v.message) ∧
    (∀ v, s.fetch.Violates v → ∃ r, s.fetch.validate = .error r ∧ r.Tells v) ∧
    (∀ v, s.logging.Violates v → ∃ r, s.logging.validate = .error r ∧ r.Tells v) := by
  refine ⟨⟨?_, fun hnone v hv => absurd ⟨v, hv⟩ hnone⟩, fun v hv => ?_, fun v hv => ?_,
    fun v hv => ?_⟩
  · rintro htold ⟨v, hv⟩
    obtain ⟨r, hr, htells⟩ := htold v hv
    cases (validate_of_violates hv).symm.trans hr
    exact (not_mentions_of_violates hv).1 htells.1
  · exact ⟨validate_of_violates hv, not_mentions_of_violates hv⟩
  · exact Violation.exists_tells (FetchSettings.mem_violations_iff.2 hv)
  · exact Violation.exists_tells (LogSettings.mem_violations_iff.2 hv)

/-- A violation in each section. -/
theorem violations_told_iff_both :
    let s : Settings := ⟨⟨["us-east1"], 0, 30⟩, ⟨programName, "", true⟩⟩
    let slots : Violation :=
      ⟨"max_concurrent_fetches", "Max concurrent fetches must be between 1 and 256"⟩
    let level : Violation := ⟨"log_level", "Log level cannot be empty"⟩
    s.Violates slots ∧ s.Violates level ∧ (∃ r, s.fetch.validate = .error r ∧ r.Tells slots) ∧
      (∃ r, s.logging.validate = .error r ∧ r.Tells level) ∧
      s.validate = .error (.validation "Validation failed: " none) ∧
      ¬ Text.Mentions (Refusal.validation "Validation failed: " none).message "log_level" := by
  intro s slots level
  have hslots : s.fetch.Violates slots := .slots (Or.inl (by decide))
  have hlevel : s.logging.Violates level := .level rfl
  obtain ⟨-, hwhole, hfetch, hlogging⟩ := violations_told_iff s
  obtain ⟨hrefused, hfield, -⟩ := hwhole level (.logging hlevel)
  exact ⟨.fetch hslots, .logging hlevel, hfetch slots hslots, hlogging level hlevel, hrefused,
    hfield⟩

/-- No slots at all: what is told names no field. -/
theorem violation_untold :
    let s : Settings := ⟨⟨[], 0, 0⟩, ⟨programName, "info", false⟩⟩
    let slots : Violation :=
      ⟨"max_concurrent_fetches", "Max concurrent fetches must be between 1 and 256"⟩
    let r : Refusal := .validation "Validation failed: " none
    s.Violates slots ∧ s.validate = .error r ∧
      r.message = "Validation error: Validation failed: " ∧ ¬ r.Tells slots := by
  intro s slots r
  have hslots : s.fetch.Violates slots := .slots (Or.inl (by decide))
  refine ⟨.fetch hslots, by decide +kernel, by decide +kernel, fun h => ?_⟩
  exact absurd h.1 (by decide +kernel)

end Settings

end SecretMount
