import SecretMount.Proofs.Entries
import SecretMount.Proofs.Grammar

/-!
# Where files are written

The path of a file is followed below the directory of the mount, component by component.

* `Place.enter`, `Place.descend` : how deep below the mount components lead, if they never lead
  above it;
* `Place.Confined` : a path that is relative, never leads above the mount and ends below it;
* `Place.IsProper` : a component that names something. `Place.descend_of_not_mem` : without `..`,
  each of these leads one level down and the others lead nowhere;
* `Entry.Accepted` : an entry of a list, or of a request, that was read. It has no `..` among the
  components of its path, unless that is its file name (`Entry.Accepted.dotdot`);
* `Mount.accepted_confined_iff` : which of these entries stay inside the mount.
-/

namespace SecretMount.Mount

/-! ## Paths -/

namespace Place

/-- The depth behind a component that is met at `depth`. There is none above the mount. -/
def enter (depth : Nat) (component : String) : Option Nat :=
  if component = "" ∨ component = "." then some depth
  else if component = ".." then if depth = 0 then none else some (depth - 1)
  else some (depth + 1)

/-- The depth behind all components. -/
def descend (depth : Nat) (components : List String) : Option Nat := components.foldlM enter depth

def IsRelative (path : String) : Prop := path.toList.head? ≠ some '/'

/-- A path that never leads above the mount. -/
def NeverAbove (path : String) : Prop := (descend 0 (Text.split '/' path)).isSome = true

/-- A relative path that never leads above the mount and ends strictly below it. -/
def Confined (path : String) : Prop :=
  IsRelative path ∧ ∃ depth, descend 0 (Text.split '/' path) = some depth ∧ 0 < depth

/-- A component that names something. -/
def IsProper (component : String) : Prop := component ≠ "" ∧ component ≠ "." ∧ component ≠ ".."

theorem enter_of_isProper {depth : Nat} {component : String} (h : IsProper component) :
    enter depth component = some (depth + 1) := by
  obtain ⟨hempty, hdot, hup⟩ := h
  rw [enter, if_neg (by simp [hempty, hdot]), if_neg hup]

theorem enter_of_not_isProper {depth : Nat} {component : String} (h : ¬ IsProper component)
    (hup : component ≠ "..") : enter depth component = some depth := by
  have hstay : component = "" ∨ component = "." := by
    by_contra hne
    exact h ⟨fun he => hne (Or.inl he), fun he => hne (Or.inr he), hup⟩
  rw [enter, if_pos hstay]

/-- Without `..`, a path leads down as soon as a component names something. -/
theorem descend_of_not_mem {components : List String} (h : ".." ∉ components) (depth : Nat) :
    ∃ final, descend depth components = some final ∧ depth ≤ final ∧
      (depth < final ↔ ∃ component ∈ components, IsProper component) := by
  induction components generalizing depth with
  | nil => exact ⟨depth, rfl, Nat.le_refl depth, by simp⟩
  | cons component r ih =>
    rw [List.mem_cons, not_or] at h
    obtain ⟨hup, hr⟩ := h
    by_cases hproper : IsProper component
    · obtain ⟨final, hfinal, hle, -⟩ := ih hr (depth + 1)
      refine ⟨final, ?_, by omega, ?_⟩
      · rw [descend, List.foldlM_cons, enter_of_isProper hproper]
        exact hfinal
      · exact ⟨fun _ => ⟨component, List.mem_cons_self, hproper⟩, fun _ => by omega⟩
    · obtain ⟨final, hfinal, hle, hdown⟩ := ih hr depth
      refine ⟨final, ?_, hle, ?_⟩
      · rw [descend, List.foldlM_cons, enter_of_not_isProper hproper (Ne.symm hup)]
        exact hfinal
      · rw [hdown, List.exists_mem_cons_iff]
        exact ⟨Or.inr, fun h => h.resolve_left hproper⟩

theorem neverAbove_of_not_mem {path : String} (h : ".." ∉ Text.split '/' path) :
    NeverAbove path := by
  obtain ⟨final, hfinal, -⟩ := descend_of_not_mem h 0
  rw [NeverAbove, hfinal]
  rfl

theorem confined_iff_of_not_mem {path : String} (hrelative : IsRelative path)
    (h : ".." ∉ Text.split '/' path) :
    Confined path ↔ ∃ component ∈ Text.split '/' path, IsProper component := by
  obtain ⟨final, hfinal, -, hdown⟩ := descend_of_not_mem h 0
  rw [← hdown]
  constructor
  · rintro ⟨-, depth, hdepth, hpos⟩
    cases hfinal.symm.trans hdepth
    exact hpos
  · exact fun hpos => ⟨hrelative, final, hfinal, hpos⟩

end Place

/-! ## Entries -/

namespace Entry

/-- The entry is in a list, or in a request, that was read. -/
def Accepted (e : Entry) : Prop :=
  (∃ text entries, parseEntries text = .ok entries ∧ e ∈ entries) ∨
    ∃ (raw : RawRequest) (request : Request), raw.parse = .ok request ∧ e ∈ request.entries

theorem parseEntries_of_parse {raw : RawRequest} {request : Request}
    (h : raw.parse = .ok request) : ∃ text, parseEntries text = .ok request.entries := by
  obtain ⟨attributes, -, h⟩ := bind_eq_ok_iff.1 h
  obtain ⟨permissions, -, h⟩ := bind_eq_ok_iff.1 h
  obtain ⟨text, -, h⟩ := bind_eq_ok_iff.1 h
  obtain ⟨entries, hentries, h⟩ := bind_eq_ok_iff.1 h
  cases h
  exact ⟨text, mapError_eq_ok_iff.1 hentries⟩

theorem Accepted.sound {e : Entry} (h : e.Accepted) : e.Sound := by
  rcases h with ⟨text, entries, htext, he⟩ | ⟨raw, request, hraw, he⟩
  · exact (parseEntries_eq_ok_iff.1 htext).2.2 e he
  · obtain ⟨text, htext⟩ := parseEntries_of_parse hraw
    exact (parseEntries_eq_ok_iff.1 htext).2.2 e he

/-- The path of an entry that was read is relative, and it only goes up when it is the file name
`..`. -/
theorem Accepted.dotdot {e : Entry} (h : e.Accepted) :
    Place.IsRelative e.outputPath ∧
      (e.fileName = some ".." ∧ e.outputPath = ".." ∨
        e.fileName ≠ some ".." ∧ ".." ∉ Text.split '/' e.outputPath) := by
  rcases h.sound.placed with ⟨name, hname, hpath, -, hslash⟩ | ⟨path, hpath, hname, -, hroot, hup⟩
  · have hplace : e.outputPath = name := by simp [outputPath, hname, hpath]
    rw [hplace, hname, Text.split_of_not_mem hslash, List.mem_singleton]
    refine ⟨fun hhead => hslash (List.mem_of_mem_head? hhead), ?_⟩
    by_cases hup : name = ".."
    · exact Or.inl ⟨congrArg some hup, hup⟩
    · exact Or.inr ⟨fun he => hup (Option.some.inj he), Ne.symm hup⟩
  · have hplace : e.outputPath = path := by simp [outputPath, hpath]
    rw [hplace, hname]
    exact ⟨hroot, Or.inr ⟨by simp, hup⟩⟩

end Entry

/-- **Which accepted entries stay inside the mount.** Every path is relative. It leads above the
mount exactly when it is the file name `..`, and it never leads above the mount and ends strictly
below it exactly when one of its components names something. -/
theorem accepted_confined_iff {e : Entry} (h : e.Accepted) :
    Place.IsRelative e.outputPath ∧
    (Place.NeverAbove e.outputPath ↔ e.fileName ≠ some "..") ∧
    (Place.Confined e.outputPath ↔
      ∃ component ∈ Text.split '/' e.outputPath, Place.IsProper component) := by
  obtain ⟨hrelative, ⟨hname, hup⟩ | ⟨hname, hnever⟩⟩ := h.dotdot
  · have habove : Place.descend 0 (Text.split '/' e.outputPath) = none := by
      rw [hup]
      decide
    have hsplit : Text.split '/' e.outputPath = [".."] := by
      rw [hup]
      decide
    refine ⟨hrelative, ?_, ?_⟩
    · simp [hname, Place.NeverAbove, habove]
    · constructor
      · rintro ⟨-, depth, hdepth, -⟩
        cases habove.symm.trans hdepth
      · rintro ⟨component, hmem, -, -, hne⟩
        rw [hsplit, List.mem_singleton] at hmem
        exact absurd hmem hne
  · have hinside := Place.neverAbove_of_not_mem hnever
    exact ⟨hrelative, ⟨fun _ => hname, fun _ => hinside⟩,
      Place.confined_iff_of_not_mem hrelative hnever⟩

/-- A path may have empty components and dots between those that name something. -/
theorem accepted_confined_iff_dots :
    let text := "- resourceName: projects/p/secrets/s/versions/1\n  path: conf//./app.json\n"
    let e := (Entry.new "projects/p/secrets/s/versions/1" "").withPath "conf//./app.json"
    parseEntries text = .ok [e] ∧ e.Accepted ∧ Place.Confined e.outputPath := by
  intro text e
  have hread : parseEntries text = .ok [e] := by decide +kernel
  have haccepted : e.Accepted := Or.inl ⟨text, [e], hread, List.mem_singleton_self e⟩
  have hproper : ∃ component ∈ Text.split '/' e.outputPath, Place.IsProper component :=
    ⟨"conf", by decide, by decide, by decide, by decide⟩
  exact ⟨hread, haccepted, (accepted_confined_iff haccepted).2.2.2 hproper⟩

/-- The file name `..` is accepted, and it leads above the mount. -/
theorem dotdot_accepted_and_above :
    let text := "- resourceName: projects/p/secrets/s/versions/1\n  fileName: ..\n"
    let e := Entry.new "projects/p/secrets/s/versions/1" ".."
    parseEntries text = .ok [e] ∧ e.outputPath = ".." ∧ ¬ Place.NeverAbove e.outputPath ∧
      ¬ Place.Confined e.outputPath := by
  intro text e
  have hread : parseEntries text = .ok [e] := by decide +kernel
  have habove : Place.descend 0 (Text.split '/' e.outputPath) = none := by decide
  refine ⟨hread, rfl, ?_, ?_⟩
  · simp [Place.NeverAbove, habove]
  · rintro ⟨-, depth, hdepth, -⟩
    cases habove.symm.trans hdepth

end SecretMount.Mount
