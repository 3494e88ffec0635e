/-!
# Tables

A table holds one value per key, in the order of the keys: strings are ordered by their
characters, which is also the order of their UTF-8 bytes.

* `Table.put` replaces what the key had; `Table.get?`, `Table.keys`, `Table.size`, `Table.ofList`;
* `Table.get?_put_self`, `Table.get?_put_of_ne` : the last value given to a key is the one found,
  and nothing else changes;
* `Table.get?_foldl_put`, `Table.get?_ofList` : the same for all values of a list;
* `Table.mem_keys_iff` : the keys are those for which a value is found;
* `Table.lookup_eq_some_iff`, `Table.lookup_reverse_eq_some_iff` : what is found in a list where no
  key is repeated, and the last value of a key in any list.
-/

namespace SecretMount

structure Table (α : Type) where
  entries : List (String × α)
  /-- Keys increase strictly. -/
  increasing : (entries.map Prod.fst).Pairwise (· < ·)

namespace Table

variable {α : Type}

def empty : Table α := ⟨[], .nil⟩

instance : Inhabited (Table α) := ⟨empty⟩

/-! ## Putting a value -/

/-- `entries` with `(k, v)` in its place. -/
def insert (k : String) (v : α) : List (String × α) → List (String × α)
  | [] => [(k, v)]
  | e :: r =>
    if k < e.1 then (k, v) :: e :: r
    else if k = e.1 then (k, v) :: r
    else e :: insert k v r

theorem fst_mem_insert {k : String} {v : α} {l : List (String × α)} {x : String} :
    x ∈ (insert k v l).map Prod.fst ↔ x = k ∨ x ∈ l.map Prod.fst := by
  induction l with
  | nil => simp [insert]
  | cons e r ih =>
    unfold insert
    split
    · simp
    · split
      · next h => simp [h]
      · simp only [List.map_cons, List.mem_cons, ih]
        constructor
        · rintro (h | h | h) <;> simp [h]
        · rintro (h | h | h) <;> simp [h]

theorem insert_increasing {k : String} {v : α} {l : List (String × α)}
    (h : (l.map Prod.fst).Pairwise (· < ·)) : ((insert k v l).map Prod.fst).Pairwise (· < ·) := by
  induction l with
  | nil => simp [insert]
  | cons e r ih =>
    simp only [List.map_cons, List.pairwise_cons] at h
    unfold insert
    split
    · next hk =>
      simp only [List.map_cons, List.pairwise_cons, List.mem_cons]
      refine ⟨?_, h⟩
      rintro x (rfl | hx)
      · exact hk
      · exact String.lt_trans hk (h.1 x hx)
    · next hk =>
      split
      · next he => subst he; simpa using h
      · next hne =>
        have hlt : e.1 < k := Std.lt_of_le_of_ne (String.not_lt.1 hk) (Ne.symm hne)
        simp only [List.map_cons, List.pairwise_cons]
        refine ⟨fun x hx => ?_, ih h.2⟩
        rcases fst_mem_insert.1 hx with rfl | hx
        · exact hlt
        · exact h.1 x hx

/-- `t` with the value `v` for `k`, whatever `k` had before. -/
def put (t : Table α) (k : String) (v : α) : Table α :=
  ⟨insert k v t.entries, insert_increasing t.increasing⟩

/-- The table of `l`, where the last value of a key counts. -/
def ofList (l : List (String × α)) : Table α := l.foldl (fun t e => t.put e.1 e.2) empty

/-! ## Looking up -/

def get? (t : Table α) (k : String) : Option α := t.entries.lookup k

def keys (t : Table α) : List String := t.entries.map Prod.fst

def contains (t : Table α) (k : String) : Bool := (t.get? k).isSome

def size (t : Table α) : Nat := t.entries.length

theorem lookup_cons (x a : String) (b : α) (l : List (String × α)) :
    ((a, b) :: l).lookup x = if x = a then some b else l.lookup x := by
  by_cases h : x = a
  · simp [h]
  · rw [List.lookup_cons, beq_eq_false_iff_ne.2 h]
    simp [h]

theorem lookup_insert (k x : String) (v : α) (l : List (String × α)) :
    (insert k v l).lookup x = if x = k then some v else l.lookup x := by
  induction l with
  | nil => simp [insert, lookup_cons]
  | cons e r ih =>
    obtain ⟨a, b⟩ := e
    unfold insert
    split
    · simp [lookup_cons]
    · split
      · next he =>
        simp only at he
        subst he
        by_cases h : x = k <;> simp [lookup_cons, h]
      · next hne =>
        simp only at hne
        simp only [lookup_cons, ih]
        by_cases h : x = a
        · subst h
          simp [Ne.symm hne]
        · simp [h]

theorem lookup_eq_some_iff {l : List (String × α)} (h : (l.map Prod.fst).Nodup) {k : String}
    {v : α} : l.lookup k = some v ↔ (k, v) ∈ l := by
  induction l with
  | nil => simp
  | cons e r ih =>
    obtain ⟨a, b⟩ := e
    rw [List.map_cons, List.nodup_cons] at h
    obtain ⟨hnew, hnodup⟩ := h
    rw [lookup_cons, List.mem_cons, Prod.mk.injEq]
    split
    · next heq =>
      subst heq
      have hk : (k, v) ∉ r := fun hmem => hnew (List.mem_map.2 ⟨_, hmem, rfl⟩)
      simp [hk, eq_comm]
    · next hne => simp [hne, ih hnodup]

/-- No key has another value further back. -/
theorem lookup_reverse {l : List (String × α)} (h : (l.map Prod.fst).Nodup) (k : String) :
    l.reverse.lookup k = l.lookup k := by
  have hreverse : (l.reverse.map Prod.fst).Nodup := by
    rw [List.map_reverse]
    exact List.pairwise_reverse.2 (h.imp Ne.symm)
  ext v
  rw [lookup_eq_some_iff hreverse, lookup_eq_some_iff h, List.mem_reverse]

/-- The last value of a key is the one behind which the key does not come again. -/
theorem lookup_reverse_eq_some_iff {l : List (String × α)} {k : String} {v : α} :
    l.reverse.lookup k = some v ↔
      ∃ before after, l = before ++ (k, v) :: after ∧ k ∉ after.map Prod.fst := by
  rw [List.lookup_eq_some_iff]
  constructor
  · rintro ⟨after, before, hl, hafter⟩
    refine ⟨before.reverse, after.reverse, ?_, fun hk => ?_⟩
    · rw [← List.reverse_reverse l, hl]
      simp
    · obtain ⟨e, he, rfl⟩ := List.mem_map.1 hk
      simpa using hafter e (List.mem_reverse.1 he)
  · rintro ⟨before, after, rfl, hafter⟩
    refine ⟨after.reverse, before.reverse, by simp, fun e he => bne_iff_ne.2 ?_⟩
    rintro rfl
    exact hafter (List.mem_map_of_mem (List.mem_reverse.1 he))

@[simp] theorem get?_put_self (t : Table α) (k : String) (v : α) : (t.put k v).get? k = some v := by
  simp [get?, put, lookup_insert]

@[simp] theorem get?_put_of_ne (t : Table α) {k x : String} (v : α) (h : x ≠ k) :
    (t.put k v).get? x = t.get? x := by
  simp [get?, put, lookup_insert, h]

/-- The last value that a list gives a key is the one found, before any that was there already. -/
theorem get?_foldl_put (l : List (String × α)) (t : Table α) (k : String) :
    (l.foldl (fun t e => t.put e.1 e.2) t).get? k = (l.reverse.lookup k).or (t.get? k) := by
  induction l generalizing t with
  | nil => simp
  | cons e r ih =>
    obtain ⟨a, b⟩ := e
    rw [List.foldl_cons, ih, List.reverse_cons, List.lookup_append, Option.or_assoc]
    congr 1
    by_cases hk : k = a <;> simp [lookup_cons, hk]

theorem get?_ofList (l : List (String × α)) (k : String) :
    (ofList l).get? k = l.reverse.lookup k := by
  rw [ofList, get?_foldl_put]
  simp [get?, empty]

theorem mem_keys_iff (t : Table α) (k : String) : k ∈ t.keys ↔ t.contains k = true := by
  unfold keys contains get?
  induction t.entries with
  | nil => simp
  | cons e r ih =>
    obtain ⟨a, b⟩ := e
    by_cases h : k = a <;> simp [lookup_cons, h, ih]

theorem nodup_of_increasing {l : List String} (h : l.Pairwise (· < ·)) : l.Nodup := by
  refine h.imp fun {a b} hlt heq => ?_
  rw [heq] at hlt
  exact String.lt_irrefl b hlt

theorem nodup_keys (t : Table α) : t.keys.Nodup := nodup_of_increasing t.increasing

/-! ## Changing all values -/

theorem fst_map {β : Type} (f : α → β) (l : List (String × α)) :
    (l.map fun e => (e.1, f e.2)).map Prod.fst = l.map Prod.fst := by
  simp [Function.comp_def]

/-- The table with `f v` in place of each value `v`. -/
def map {β : Type} (f : α → β) (t : Table α) : Table β :=
  ⟨t.entries.map fun e => (e.1, f e.2), by rw [fst_map]; exact t.increasing⟩

theorem lookup_map {β : Type} (f : α → β) (k : String) (l : List (String × α)) :
    (l.map fun e => (e.1, f e.2)).lookup k = (l.lookup k).map f := by
  induction l with
  | nil => rfl
  | cons e r ih =>
    obtain ⟨a, b⟩ := e
    simp only [List.map_cons, lookup_cons, ih]
    split <;> rfl

@[simp] theorem get?_map {β : Type} (f : α → β) (t : Table α) (k : String) :
    (t.map f).get? k = (t.get? k).map f :=
  lookup_map f k t.entries

end Table

end SecretMount
