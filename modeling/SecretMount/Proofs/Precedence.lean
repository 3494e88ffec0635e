import Mathlib.Data.List.Forall2
import SecretMount.Log.Startup
import SecretMount.Proofs.Variables

/-!
# Which filter a log has

The variable for the filter counts before the level of the settings, but only when it is set to the
text of a filter. One directive that is none, and the variable is passed over as if it were not set.

* `Filter.Says`, `Filter.Malformed` : the filter in a text, and texts without one, of which each
  text is either (`Filter.parse?_eq_some_iff`, `Filter.parse?_eq_none_iff`);
* `Log.filterOf_of_text`, `Log.filterOf_of_malformed` : the filter of a log where the variable
  counts and where it does not;
* `Log.level_disregarded_iff` : when the settings have no say.
-/

namespace SecretMount.Log

/-! ## Texts of filters -/

namespace Filter

/-- The text has the directives of the filter between its commas. Nothing between two commas is no
directive. -/
def Says (text : String) (f : Filter) : Prop :=
  List.Forall₂ (fun piece d => Directive.parse? piece = some d)
    ((Text.split ',' text).filter (!·.isEmpty)) f

/-- Something between the commas of the text is no directive. -/
def Malformed (text : String) : Prop :=
  ∃ piece ∈ Text.split ',' text, piece ≠ "" ∧ Directive.parse? piece = none

theorem mapM_eq_some_iff {α β : Type} {f : α → Option β} : ∀ {l : List α} {m : List β},
    l.mapM f = some m ↔ List.Forall₂ (fun a b => f a = some b) l m
  | [], m => by simp [eq_comm]
  | a :: l, m => by
    rw [List.mapM_cons, List.forall₂_cons_left_iff]
    simp only [Option.bind_eq_bind, Option.bind_eq_some_iff, Option.pure_def, Option.some_inj,
      mapM_eq_some_iff]
    constructor
    · rintro ⟨b, hb, bs, hbs, rfl⟩
      exact ⟨b, bs, hb, hbs, rfl⟩
    · rintro ⟨b, bs, hb, hbs, rfl⟩
      exact ⟨b, hb, bs, hbs, rfl⟩

theorem mapM_eq_none_iff {α β : Type} {f : α → Option β} {l : List α} :
    l.mapM f = none ↔ ∃ a ∈ l, f a = none := by
  induction l with
  | nil => simp
  | cons a l ih =>
    rw [List.mapM_cons]
    cases ha : f a with
    | none => simp [ha]
    | some b => cases hl : l.mapM f <;> simpa [ha, hl] using ih

theorem parse?_eq_some_iff {text : String} {f : Filter} : parse? text = some f ↔ Says text f :=
  mapM_eq_some_iff

theorem parse?_eq_none_iff {text : String} : parse? text = none ↔ Malformed text := by
  rw [parse?, mapM_eq_none_iff, Malformed]
  simp [and_assoc]

theorem exists_says_iff {text : String} : (∃ f, Says text f) ↔ ¬ Malformed text := by
  simp only [← parse?_eq_some_iff, ← parse?_eq_none_iff, ← Option.isSome_iff_exists,
    Option.isSome_iff_ne_none, ne_eq]

end Filter

open SecretMount.Log.Filter (Says Malformed)

/-! ## Variable and settings -/

variable {env : Environment}

theorem filterOf_of_text {text : String} {f : Filter} (h : env.Holds "RUST_LOG" (some text))
    (hf : Says text f) (s : LogSettings) : filterOf env s = .ok f := by
  rw [filterOf, h.text?_eq, Filter.choose, Option.bind_some, Filter.parse?_eq_some_iff.2 hf]

/-- A variable that is not set, is no text or is the text of no filter leaves it to the settings. -/
theorem filterOf_of_malformed (h : ∀ text, env.Holds "RUST_LOG" (some text) → Malformed text)
    (s : LogSettings) : filterOf env s = Filter.choose none s.logLevel := by
  have hnone : (env.text? "RUST_LOG").bind Filter.parse? = none := by
    cases htext : env.text? "RUST_LOG" with
    | none => rfl
    | some text =>
      have hmalformed := h text (Environment.text?_eq_some_iff.1 htext)
      exact Filter.parse?_eq_none_iff.2 hmalformed
  rw [filterOf, Filter.choose, hnone, Filter.choose, Option.bind_none]

theorem choose_none_eq_ok_iff {level : String} {f : Filter} :
    Filter.choose none level = .ok f ↔ Says level f := by
  rw [Filter.choose, Option.bind_none, ← Filter.parse?_eq_some_iff]
  cases Filter.parse? level <;> simp

theorem choose_none_eq_error_iff {level : String} {r : Refusal} :
    Filter.choose none level = .error r ↔
      Malformed level ∧ r = .config ("Invalid log level \"" ++ level ++ "\"") := by
  rw [Filter.choose, Option.bind_none, ← Filter.parse?_eq_none_iff]
  cases Filter.parse? level with
  | none =>
    constructor
    · rintro ⟨⟩
      exact ⟨rfl, rfl⟩
    · rintro ⟨-, rfl⟩
      rfl
  | some f =>
    constructor
    · nofun
    · exact fun h => (nomatch h.1)

/-- Two levels with different filters. -/
theorem exists_choose_ne : ∃ level level', Filter.choose none level ≠ Filter.choose none level' :=
  ⟨"info", "debug", by decide +kernel⟩

/-- **When the settings have no say.** All settings have the same result exactly when the variable
is set to a text of which each directive is one, and then this text has the filter. Otherwise,
whether the variable is set or not, the level of the settings has the filter, and one that has none
is refused. -/
theorem level_disregarded_iff (env : Environment) :
    ((∀ s s', filterOf env s = filterOf env s') ↔
      ∃ text, env.Holds "RUST_LOG" (some text) ∧ ¬ Malformed text) ∧
    (∀ text, env.Holds "RUST_LOG" (some text) → ∀ f, Says text f → ∀ s, filterOf env s = .ok f) ∧
    ((∀ text, env.Holds "RUST_LOG" (some text) → Malformed text) → ∀ s,
      (∀ f, filterOf env s = .ok f ↔ Says s.logLevel f) ∧
      ∀ r, filterOf env s = .error r ↔ Malformed s.logLevel ∧
        r = .config ("Invalid log level \"" ++ s.logLevel ++ "\"")) := by
  refine ⟨⟨fun hsame => ?_, ?_⟩, fun text htext f hf => filterOf_of_text htext hf,
    fun hmalformed s => ?_⟩
  · by_contra hnone
    have hmalformed : ∀ text, env.Holds "RUST_LOG" (some text) → Malformed text :=
      fun text htext => by_contra fun h => hnone ⟨text, htext, h⟩
    obtain ⟨level, level', hne⟩ := exists_choose_ne
    apply hne
    rw [← filterOf_of_malformed hmalformed ⟨programName, level, false⟩,
      ← filterOf_of_malformed hmalformed ⟨programName, level', false⟩]
    exact hsame _ _
  · rintro ⟨text, htext, hwell⟩ s s'
    obtain ⟨f, hf⟩ := Filter.exists_says_iff.2 hwell
    rw [filterOf_of_text htext hf, filterOf_of_text htext hf]
  · rw [filterOf_of_malformed hmalformed]
    exact ⟨fun f => choose_none_eq_ok_iff, fun r => choose_none_eq_error_iff⟩

/-- A variable with two directives before a level that is no filter, and the same level without the
variable. -/
theorem level_disregarded_iff_two_directives :
    let env : Environment := ⟨.ofList [("RUST_LOG", Text.encode "warn,secrets[mount]=debug")]⟩
    let unset : Environment := ⟨.ofList []⟩
    let f : Filter := [⟨.upTo .warn, none, none, []⟩,
      ⟨.upTo .debug, some "secrets", some "mount", []⟩]
    let s : LogSettings := ⟨programName, "[not a filter", false⟩
    env.Holds "RUST_LOG" (some "warn,secrets[mount]=debug") ∧
      Says "warn,secrets[mount]=debug" f ∧ filterOf env s = .ok f ∧
      (∀ other, filterOf env s = filterOf env other) ∧
      unset.Holds "RUST_LOG" none ∧
      filterOf unset s = .error (.config "Invalid log level \"[not a filter\"") := by
  intro env unset f s
  have hset : env.Holds "RUST_LOG" (some "warn,secrets[mount]=debug") :=
    (Table.get?_ofList _ _).trans (by decide)
  have hunset : unset.Holds "RUST_LOG" none := rfl
  have hsays : Says "warn,secrets[mount]=debug" f := Filter.parse?_eq_some_iff.1 (by decide +kernel)
  have hlevel : Malformed s.logLevel := Filter.parse?_eq_none_iff.1 (by decide +kernel)
  obtain ⟨hsame, hvariable, -⟩ := level_disregarded_iff env
  obtain ⟨-, -, hsettings⟩ := level_disregarded_iff unset
  have hnone : ∀ text, unset.Holds "RUST_LOG" (some text) → Malformed text :=
    fun text htext => (nomatch hunset.symm.trans htext)
  exact ⟨hset, hsays, hvariable _ hset f hsays s,
    hsame.2 ⟨_, hset, Filter.exists_says_iff.1 ⟨f, hsays⟩⟩ s, hunset,
    ((hsettings hnone s).2 _).2 ⟨hlevel, by decide⟩⟩

/-- A variable that is set to no filter, with two levels that have one each. -/
theorem malformed_passed_over :
    let env : Environment := ⟨.ofList [("RUST_LOG", Text.encode "[not a filter")]⟩
    env.Holds "RUST_LOG" (some "[not a filter") ∧
      filterOf env ⟨programName, "info", false⟩ = .ok [⟨.upTo .info, none, none, []⟩] ∧
      filterOf env ⟨programName, "debug", false⟩ = .ok [⟨.upTo .debug, none, none, []⟩] ∧
      ¬ ∀ s s', filterOf env s = filterOf env s' := by
  intro env
  have hinfo : filterOf env ⟨programName, "info", false⟩ = .ok [⟨.upTo .info, none, none, []⟩] := by
    decide +kernel
  have hdebug : filterOf env ⟨programName, "debug", false⟩ =
      .ok [⟨.upTo .debug, none, none, []⟩] := by
    decide +kernel
  refine ⟨(Table.get?_ofList _ _).trans (by decide), hinfo, hdebug, fun hsame => ?_⟩
  have hsame := hinfo.symm.trans ((hsame _ _).trans hdebug)
  exact absurd hsame (by decide)

end SecretMount.Log
