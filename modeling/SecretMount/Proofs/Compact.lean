import SecretMount.Proofs.Extraction
import SecretMount.Proofs.RoundTrip

/-!
# Compact texts of JSON values

The text that stands for a value in a message has no white space, and each key of an object once, in
the order of the keys and with its last value.

* `Json.Last`, `Json.HasMember` : the last value of a key among members, and in an object;
* `Table.entries_ofList_map` : the values of a table can be changed before it is filled;
* `Json.Settled` : members with each key once. `Json.settled_iff` : these are the entries of a
  table;
* `Json.Compact` : the compact text of a value, one rule for each kind of value;
* `Json.compact_iff` : every value has one compact text, and this is the one that is written.
-/

namespace SecretMount

/-! ## Tables with other values -/

namespace Table

variable {α β : Type} (f : α → β)

theorem insert_map (k : String) (v : α) (l : List (String × α)) :
    insert k (f v) (l.map fun e => (e.1, f e.2)) =
      (insert k v l).map fun e => (e.1, f e.2) := by
  induction l with
  | nil => rfl
  | cons e r ih =>
    rw [List.map_cons]
    unfold insert
    simp only
    split
    · rfl
    · split
      · rfl
      · rw [ih, List.map_cons]

theorem put_map (t : Table α) (k : String) (v : α) :
    (t.map f).put k (f v) = (t.put k v).map f := by
  unfold put map
  simp only [insert_map]

theorem foldl_put_map (l : List (String × α)) (t : Table α) :
    (l.map fun e => (e.1, f e.2)).foldl (fun t e => t.put e.1 e.2) (t.map f) =
      (l.foldl (fun t e => t.put e.1 e.2) t).map f := by
  induction l generalizing t with
  | nil => rfl
  | cons e r ih => rw [List.map_cons, List.foldl_cons, List.foldl_cons, put_map, ih]

theorem entries_ofList_map (l : List (String × α)) :
    (ofList (l.map fun e => (e.1, f e.2))).entries =
      (ofList l).entries.map fun e => (e.1, f e.2) :=
  congrArg entries (foldl_put_map f l empty)

end Table

namespace Json

/-! ## Last members -/

/-- `v` is the value of `key` in `members`, and no later member has the key. -/
def Last (key : String) (v : Json) (members : List (String × Json)) : Prop :=
  ∃ before after, members = before ++ (key, v) :: after ∧ key ∉ after.map Prod.fst

/-- `j` is an object in which `v` is the value of `key`. -/
def HasMember (key : String) (v j : Json) : Prop :=
  ∃ members, j = object members ∧ Last key v members

theorem lastOf?_eq_some_iff {key : String} {v : Json} {members : List (String × Json)} :
    lastOf? key members = some v ↔ Last key v members :=
  Table.lookup_reverse_eq_some_iff

theorem member?_eq_some_iff {key : String} {v j : Json} :
    j.member? key = some v ↔ HasMember key v j := by
  cases j with
  | object members => simp [member?, HasMember, lastOf?_eq_some_iff]
  | _ => simp [member?, HasMember]

/-- `kept` has each key of `members` once, with its last value, in the order of the keys. -/
structure Settled (members kept : List (String × Json)) : Prop where
  increasing : kept.Pairwise fun a b => a.1 < b.1
  mem_iff : ∀ key v, (key, v) ∈ kept ↔ Last key v members

theorem nodup_of_increasing {l : List (String × Json)} (h : l.Pairwise fun a b => a.1 < b.1) :
    (l.map Prod.fst).Nodup :=
  Table.nodup_of_increasing (List.pairwise_map.2 h)

theorem settled_entries (members : List (String × Json)) :
    Settled members (Table.ofList members).entries := by
  have hincreasing := List.pairwise_map.1 (Table.ofList members).increasing
  refine ⟨hincreasing, fun key v => ?_⟩
  rw [← Table.lookup_eq_some_iff (nodup_of_increasing hincreasing), ← lastOf?_eq_some_iff]
  exact Eq.congr_left (Table.get?_ofList members key)

/-- **There is one way to settle members.** -/
theorem settled_iff {members kept : List (String × Json)} :
    Settled members kept ↔ (Table.ofList members).entries = kept := by
  constructor
  · intro h
    have hentries := settled_entries members
    have hperm : (Table.ofList members).entries.Perm kept :=
      (List.perm_ext_iff_of_nodup (nodup_of_increasing hentries.increasing).of_map
        (nodup_of_increasing h.increasing).of_map).2 fun m =>
          (hentries.mem_iff m.1 m.2).trans (h.mem_iff m.1 m.2).symm
    refine hperm.eq_of_pairwise (fun a b _ _ hlt hgt => ?_) hentries.increasing h.increasing
    exact absurd (String.lt_trans hlt hgt) (String.lt_irrefl _)
  · rintro rfl
    exact settled_entries members

/-! ## Compact texts -/

mutual

/-- `s` is the compact text of a value. -/
inductive Compact : Json → String → Prop
  | null : Compact .null "null"
  | true : Compact (.bool true) "true"
  | false : Compact (.bool false) "false"
  | integer (i : Int) : Compact (.number (.int i)) (toString i)
  | real (x : Float) : Compact (.number (.real x)) (layout.realText x)
  | string (t : String) : Compact (.string t) (quote t)
  | array {items : List Json} {s : String} (h : CompactItems items s) :
      Compact (.array items) ("[" ++ s ++ "]")
  | object {members kept : List (String × Json)} {s : String} (hkept : Settled members kept)
      (h : CompactMembers kept s) : Compact (.object members) ("\x7b" ++ s ++ "\x7d")

/-- The items of a list with commas between them. -/
inductive CompactItems : List Json → String → Prop
  | none : CompactItems [] ""
  | last {v : Json} {s : String} (h : Compact v s) : CompactItems [v] s
  | more {v w : Json} {items : List Json} {s t : String} (h : Compact v s)
      (ht : CompactItems (w :: items) t) : CompactItems (v :: w :: items) (s ++ "," ++ t)

/-- The members of an object with commas between them. -/
inductive CompactMembers : List (String × Json) → String → Prop
  | none : CompactMembers [] ""
  | last {k : String} {v : Json} {s : String} (h : Compact v s) :
      CompactMembers [(k, v)] (quote k ++ ":" ++ s)
  | more {k : String} {v : Json} {m : String × Json} {members : List (String × Json)}
      {s t : String} (h : Compact v s) (ht : CompactMembers (m :: members) t) :
      CompactMembers ((k, v) :: m :: members) (quote k ++ ":" ++ s ++ "," ++ t)

end

theorem sortedMembers_eq_map (members : List (String × Json)) :
    sortedMembers members = members.map fun m => (m.1, m.2.sorted) := by
  induction members with
  | nil => rfl
  | cons m members ih => rw [sortedMembers, ih, List.map_cons]

theorem sorted_object {members kept : List (String × Json)} (h : Settled members kept) :
    (object members).sorted = object (sortedMembers kept) := by
  rw [sorted, sortedMembers_eq_map, Table.entries_ofList_map, settled_iff.1 h,
    sortedMembers_eq_map]

mutual

theorem Compact.text_eq : ∀ {v : Json} {s : String}, Compact v s → v.sorted.text = s
  | _, _, .null => rfl
  | _, _, .true => rfl
  | _, _, .false => rfl
  | _, _, .integer i => rfl
  | _, _, .real x => rfl
  | _, _, .string t => rfl
  | _, _, .array h => by rw [sorted, text, h.text_eq]
  | _, _, .object hkept h => by rw [sorted_object hkept, text, h.text_eq]

theorem CompactItems.text_eq : ∀ {items : List Json} {s : String}, CompactItems items s →
    String.intercalate "," (itemTexts (sortedItems items)) = s
  | _, _, .none => rfl
  | _, _, .last h => by
    rw [sortedItems, sortedItems, itemTexts, itemTexts, String.intercalate_singleton, h.text_eq]
  | _, _, .more h ht => by
    have hrest := ht.text_eq
    rw [sortedItems, itemTexts,
      String.intercalate_cons_of_ne_nil (by simp [sortedItems, itemTexts]), hrest, h.text_eq]

theorem CompactMembers.text_eq : ∀ {members : List (String × Json)} {s : String},
    CompactMembers members s →
      String.intercalate "," (memberTexts (sortedMembers members)) = s
  | _, _, .none => rfl
  | _, _, .last h => by
    rw [sortedMembers, sortedMembers, memberTexts, memberTexts, String.intercalate_singleton,
      h.text_eq]
  | _, _, .more h ht => by
    have hrest := ht.text_eq
    rw [sortedMembers, memberTexts,
      String.intercalate_cons_of_ne_nil (by simp [sortedMembers, memberTexts]), hrest, h.text_eq]

end

theorem compactItems_of_forall : ∀ {items : List Json},
    (∀ v ∈ items, Compact v v.sorted.text) →
      CompactItems items (String.intercalate "," (itemTexts (sortedItems items)))
  | [], _ => .none
  | [v], h => by
    rw [sortedItems, sortedItems, itemTexts, itemTexts, String.intercalate_singleton]
    exact .last (h v List.mem_cons_self)
  | v :: w :: items, h => by
    obtain ⟨hv, hitems⟩ := List.forall_mem_cons.1 h
    rw [sortedItems, itemTexts,
      String.intercalate_cons_of_ne_nil (by simp [sortedItems, itemTexts])]
    exact .more hv (compactItems_of_forall hitems)

theorem compactMembers_of_forall : ∀ {members : List (String × Json)},
    (∀ m ∈ members, Compact m.2 m.2.sorted.text) →
      CompactMembers members (String.intercalate "," (memberTexts (sortedMembers members)))
  | [], _ => .none
  | [(k, v)], h => by
    rw [sortedMembers, sortedMembers, memberTexts, memberTexts, String.intercalate_singleton]
    exact .last (h (k, v) List.mem_cons_self)
  | (k, v) :: m :: members, h => by
    obtain ⟨hv, hmembers⟩ := List.forall_mem_cons.1 h
    rw [sortedMembers, memberTexts,
      String.intercalate_cons_of_ne_nil (by simp [sortedMembers, memberTexts])]
    exact .more hv (compactMembers_of_forall hmembers)

/-- The members that are kept of an object are among its members. -/
theorem Settled.subset {members kept : List (String × Json)} (h : Settled members kept) :
    kept ⊆ members := by
  rintro ⟨k, v⟩ hm
  obtain ⟨before, after, rfl, -⟩ := (h.mem_iff k v).1 hm
  exact List.mem_append_right _ List.mem_cons_self

mutual

theorem compact_sorted_text : ∀ v : Json, Compact v v.sorted.text
  | .null => .null
  | .bool true => .true
  | .bool false => .false
  | .number (.int i) => .integer i
  | .number (.real x) => .real x
  | .string t => .string t
  | .array items => .array (compactItems_of_forall (forall_compact items))
  | .object members => by
    have hkept := settled_entries members
    have hmembers := forall_compactMember members
    rw [sorted_object hkept]
    exact .object hkept (compactMembers_of_forall fun m hm => hmembers m (hkept.subset hm))

theorem forall_compact : ∀ items : List Json, ∀ v ∈ items, Compact v v.sorted.text
  | [] => nofun
  | v :: items => List.forall_mem_cons.2 ⟨compact_sorted_text v, forall_compact items⟩

theorem forall_compactMember : ∀ members : List (String × Json),
    ∀ m ∈ members, Compact m.2 m.2.sorted.text
  | [] => nofun
  | (_, v) :: members =>
    List.forall_mem_cons.2 ⟨compact_sorted_text v, forall_compactMember members⟩

end

/-- **Every value has one compact text, and this is the one that is written.** -/
theorem compact_iff {v : Json} {s : String} : Compact v s ↔ v.sorted.text = s := by
  constructor
  · exact Compact.text_eq
  · rintro rfl
    exact compact_sorted_text v

end Json

end SecretMount
