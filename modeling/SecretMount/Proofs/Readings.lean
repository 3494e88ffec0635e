import SecretMount.Proofs.Radix
import SecretMount.Proofs.Spelling
import SecretMount.Yaml.Record

/-!
# What is found in YAML documents

A reader follows aliases, but not more than the document allows. What it finds is told here by the
nodes alone, together with the number of aliases that are followed to it.

* `Document.node?`, `Document.scalar?`, `Document.items?`, `Document.members?` : what a node is, or
  an alias stands for;
* `Document.under` : the values of a key;
* `Scalar.IsNull`, `Scalar.IsPresent` : scalars that stand for nothing, and for something;
* `Document.Optional` : what may be left out, or be null;
* `Reading.Finds` : what a reader finds, with one lemma for each way to put readers together and one
  for each reader;
* `Document.resolved_of_read` : no alias stands for an alias;
* `readDocument_eq_ok_iff` : what is found in a text.
-/

namespace SecretMount.Yaml

variable {α β : Type}

/-! ## Nodes -/

/-- The text of a scalar that is written by leaving it out. -/
def Scalar.IsEmpty (s : Scalar) : Prop := s.style = .plain ∧ s.text = ""

instance (s : Scalar) : Decidable s.IsEmpty := inferInstanceAs (Decidable (_ ∧ _))

namespace Tree

def isAlias : Tree → Bool
  | reference _ => true
  | _ => false

/-- Whether this is a node of its own: no alias, and no place where a document breaks off. -/
def isNode : Tree → Bool
  | hole | reference _ => false
  | _ => true

def scalar? : Tree → Option Scalar
  | scalar s _ => some s
  | _ => none

/-- The items of a list, which may be left out. -/
def items? : Tree → Option (List Tree)
  | list _ items _ => some items
  | scalar s _ => if s.IsEmpty then some [] else none
  | _ => none

/-- The keys and values of a mapping, which may be left out. -/
def members? : Tree → Option (List (Tree × Tree))
  | mapping _ members _ => some members
  | scalar s _ => if s.IsEmpty then some [] else none
  | _ => none

end Tree

/-- The number of aliases in `l`. -/
def aliases (l : List Tree) : Nat := l.countP Tree.isAlias

theorem aliases_cons (t : Tree) (l : List Tree) : aliases (t :: l) = aliases [t] + aliases l := by
  rw [aliases, ← List.singleton_append, List.countP_append]
  rfl

theorem aliases_append (l m : List Tree) : aliases (l ++ m) = aliases l + aliases m :=
  List.countP_append

theorem aliases_flatMap {ι : Type} (f : ι → List Tree) (l : List ι) :
    aliases (l.flatMap f) = (l.map fun x => aliases (f x)).sum :=
  List.countP_flatMap

theorem aliases_of_isNode {t : Tree} (h : t.isNode = true) : aliases [t] = 0 := by
  cases t with
  | reference number => cases h
  | _ => rfl

namespace Document

variable (d : Document)

/-- The node that `t` is or stands for. -/
def node? : Tree → Option Tree
  | .hole => none
  | .reference n => d.targets.lookup n
  | t => some t

theorem node?_of_isNode {t : Tree} (h : t.isNode = true) : d.node? t = some t := by
  cases t with
  | hole | reference => cases h
  | _ => rfl

def scalar? (t : Tree) : Option Scalar := (d.node? t).bind Tree.scalar?

def items? (t : Tree) : Option (List Tree) := (d.node? t).bind Tree.items?

def members? (t : Tree) : Option (List (Tree × Tree)) := (d.node? t).bind Tree.members?

/-- The text of a key or value, whatever kind of scalar it is. -/
def text? (t : Tree) : Option String := (d.scalar? t).map Scalar.text

/-- What stands under the key `k`. -/
def under (k : String) (members : List (Tree × Tree)) : List Tree :=
  (members.filter fun m => d.text? m.1 = some k).map Prod.snd

end Document

/-! ## Scalars -/

namespace Scalar

/-- A plain scalar that stands for nothing. -/
def IsNull (s : Scalar) : Prop :=
  s.style = .plain ∧ (s.tag = none ∧ s.text ∈ ["", "~", "null", "Null", "NULL"] ∨
    s.tag = some (Text.encode "tag:yaml.org,2002:null") ∧ s.text ∈ ["~", "null", "Null", "NULL"])

/-- A scalar that stands for something. No plain scalar does that is said to be null. -/
def IsPresent (s : Scalar) : Prop :=
  s.style = .plain → s.tag ≠ some (Text.encode "tag:yaml.org,2002:null") ∧
    (s.tag = none → s.text ∉ ["", "~", "null", "Null", "NULL"])

theorem isNull_iff {text : String} :
    Schema.isNull text = true ↔ text ∈ ["~", "null", "Null", "NULL"] := by
  simp only [Schema.isNull, Bool.or_eq_true, beq_iff_eq, List.mem_cons, List.not_mem_nil, or_false]
  tauto

theorem isEmpty_or_isNull_iff {text : String} : (text.isEmpty || Schema.isNull text) = true ↔
    text ∈ ["", "~", "null", "Null", "NULL"] := by
  rw [Bool.or_eq_true, isNull_iff, String.isEmpty_iff, List.mem_cons (b := "")]

/-- A plain scalar is null, or it is present, unless it is said to be null and is not. -/
theorem isAbsent?_of_plain {s : Scalar} (h : s.style = .plain) :
    (Document.isAbsent? s = some true ↔ s.IsNull) ∧
      (Document.isAbsent? s = some false ↔ s.IsPresent) := by
  have hcore : Schema.coreTag "null" = Text.encode "tag:yaml.org,2002:null" := rfl
  rw [Document.isAbsent?, if_neg (not_not.2 h), hcore, IsNull, IsPresent]
  cases htag : s.tag with
  | none =>
    simp only [h, true_and, forall_const, reduceCtorEq, false_and, or_false, not_false_eq_true,
      ne_eq, Option.some.injEq, isEmpty_or_isNull_iff, ← Bool.not_eq_true]
  | some tag =>
    by_cases hnull : tag = Text.encode "tag:yaml.org,2002:null"
    · by_cases hword : Schema.isNull s.text
      · simp [h, hnull, hword, isNull_iff.1 hword]
      · simp [h, hnull, hword, mt isNull_iff.2 hword]
    · simp [h, hnull]

theorem isAbsent?_eq_true_iff {s : Scalar} : Document.isAbsent? s = some true ↔ s.IsNull := by
  by_cases h : s.style = .plain
  · exact (isAbsent?_of_plain h).1
  · simp [Document.isAbsent?, IsNull, h]

theorem isAbsent?_eq_false_iff {s : Scalar} : Document.isAbsent? s = some false ↔ s.IsPresent := by
  by_cases h : s.style = .plain
  · exact (isAbsent?_of_plain h).2
  · simp [Document.isAbsent?, IsPresent, h]

end Scalar

/-! ## Readers -/

namespace Reading

/-- `r` finds what has the property `R`, and follows `count` aliases to it. It may follow `max` of
them, those before it included. -/
def Finds (max : Nat) (r : Reading α) (count : Nat) (R : α → Prop) : Prop :=
  ∀ n a m, n ≤ max → (r.run n = .ok (a, m) ↔ R a ∧ m = n + count ∧ m ≤ max)

theorem bind_eq_ok_iff {x : Reading α} {f : α → Reading β} {n m : Nat} {b : β} :
    (x >>= f).run n = .ok (b, m) ↔ ∃ a l, x.run n = .ok (a, l) ∧ (f a).run l = .ok (b, m) := by
  rw [StateT.run_bind, SecretMount.bind_eq_ok_iff]
  exact ⟨fun ⟨⟨a, l⟩, h⟩ => ⟨a, l, h⟩, fun ⟨a, l, h⟩ => ⟨(a, l), h⟩⟩

variable {max : Nat}

theorem Finds.congr {r : Reading α} {count : Nat} {R S : α → Prop} (h : r.Finds max count R)
    (hiff : ∀ a, R a ↔ S a) : r.Finds max count S := by
  intro n a m hn
  rw [h n a m hn, hiff]

theorem finds_pure (a : α) : Finds max (pure a) 0 (· = a) := by
  intro n b m hn
  have hrun : (pure a : Reading α).run n = .ok (a, n) := rfl
  rw [hrun, Except.ok.injEq, Prod.mk.injEq]
  constructor
  · rintro ⟨rfl, rfl⟩
    exact ⟨rfl, rfl, hn⟩
  · rintro ⟨rfl, rfl, -⟩
    exact ⟨rfl, rfl⟩

theorem finds_throw (fault : Fault) (count : Nat) :
    Finds max (throw fault : Reading α) count fun _ => False := by
  intro n a m _
  have hrun : (throw fault : Reading α).run n = .error fault := rfl
  simp [hrun]

theorem finds_ofOption (o : Option α) : Finds max (ofOption o) 0 (o = some ·) := by
  cases o with
  | none => exact (finds_throw .unfit 0).congr (by simp)
  | some a => exact (finds_pure a).congr (by simp [eq_comm])

/-- What two readers find one after the other. -/
theorem Finds.bind {r : Reading α} {f : α → Reading β} {i j : Nat} {R : α → Prop}
    {S : α → β → Prop} (h : r.Finds max i R) (hf : ∀ a, R a → (f a).Finds max j (S a)) :
    (r >>= f).Finds max (i + j) fun b => ∃ a, R a ∧ S a b := by
  intro n b m hn
  rw [bind_eq_ok_iff]
  constructor
  · rintro ⟨a, l, hr, hb⟩
    obtain ⟨hR, rfl, hle⟩ := (h n a l hn).1 hr
    obtain ⟨hS, rfl, hle'⟩ := (hf a hR _ b m hle).1 hb
    exact ⟨⟨a, hR, hS⟩, by omega, hle'⟩
  · rintro ⟨⟨a, hR, hS⟩, rfl, hle⟩
    have hmiddle : n + i ≤ max := by omega
    exact ⟨a, n + i, (h n a _ hn).2 ⟨hR, rfl, hmiddle⟩,
      (hf a hR _ b _ hmiddle).2 ⟨hS, by omega, hle⟩⟩

/-- What a reader finds in each of several nodes. -/
theorem finds_mapM {ι : Type} {f : ι → Reading α} {count : ι → Nat} {R : ι → α → Prop}
    {l : List ι} (h : ∀ x ∈ l, (f x).Finds max (count x) (R x)) :
    (l.mapM f).Finds max (l.map count).sum (List.Forall₂ R l) := by
  induction l with
  | nil =>
    rw [List.mapM_nil]
    exact (finds_pure []).congr (by simp)
  | cons x l ih =>
    obtain ⟨hx, hl⟩ := List.forall_mem_cons.1 h
    rw [List.mapM_cons]
    refine (hx.bind fun a _ => (ih hl).bind fun as _ => finds_pure (a :: as)).congr fun as => ?_
    rw [List.forall₂_cons_left_iff]
    constructor
    · rintro ⟨a, ha, as, has, rfl⟩
      exact ⟨a, as, ha, has, rfl⟩
    · rintro ⟨a, as, ha, has, rfl⟩
      exact ⟨a, ha, as, has, rfl⟩

end Reading

/-! ## Values of nodes -/

namespace Document

open Reading

variable (d : Document)

theorem finds_follow (t : Tree) :
    (d.follow t).Finds d.maxFollowed (aliases [t]) (d.node? t = some ·) := by
  cases t with
  | hole => exact (finds_throw _ _).congr (by simp [node?])
  | reference number =>
    intro n u m hn
    have hrun : (d.follow (.reference number)).run n =
        if n < d.maxFollowed then (ofOption (d.targets.lookup number)).run (n + 1)
        else .error .tooManyAliases := by
      show ((if n < d.maxFollowed then do
        set (n + 1)
        ofOption (d.targets.lookup number)
        else throw .tooManyAliases) : Reading Tree).run n = _
      split <;> rfl
    rw [hrun]
    split
    · next hlt =>
      rw [finds_ofOption _ (n + 1) u m hlt]
      rfl
    · next hge =>
      simp only [reduceCtorEq, false_iff]
      rintro ⟨-, rfl, hle⟩
      have hone : aliases [.reference number] = 1 := rfl
      omega
  | scalar s mark => exact (finds_pure _).congr (by simp [node?, eq_comm])
  | list tag items mark => exact (finds_pure _).congr (by simp [node?, eq_comm])
  | mapping tag entries mark => exact (finds_pure _).congr (by simp [node?, eq_comm])

/-- What is found in the node that `t` is or stands for. -/
theorem finds_follow_bind {f : Tree → Reading α} {g : Tree → Option α}
    (h : ∀ u, (f u).Finds d.maxFollowed 0 (g u = some ·)) (t : Tree) :
    (d.follow t >>= f).Finds d.maxFollowed (aliases [t]) ((d.node? t).bind g = some ·) :=
  ((d.finds_follow t).bind fun u _ => h u).congr fun _ => Option.bind_eq_some_iff.symm

theorem finds_scalar (t : Tree) :
    (d.scalar t).Finds d.maxFollowed (aliases [t]) (d.scalar? t = some ·) := by
  refine d.finds_follow_bind (fun u => ?_) t
  cases u with
  | scalar s mark => exact (finds_pure s).congr fun _ => by simp [Tree.scalar?, eq_comm]
  | _ => exact (finds_throw _ _).congr fun _ => by simp [Tree.scalar?]

theorem finds_text (t : Tree) :
    (d.text t).Finds d.maxFollowed (aliases [t]) (d.text? t = some ·) := by
  refine ((d.finds_scalar t).bind fun s _ => finds_pure s.text).congr fun text => ?_
  rw [text?, Option.map_eq_some_iff]
  simp only [eq_comm]

/-- `read` finds what scalars say, where `Says` tells what that is. -/
def ReadsAs (read : Tree → Reading α) (Says : Scalar → α → Prop) : Prop :=
  ∀ t, (read t).Finds d.maxFollowed (aliases [t]) fun a => ∃ s, d.scalar? t = some s ∧ Says s a

theorem readsAs_text : d.ReadsAs d.text fun s text => s.text = text := fun t =>
  (d.finds_text t).congr fun text => by rw [text?, Option.map_eq_some_iff]

/-- What is made of a scalar that is read. -/
theorem readsAs_bind {read : Tree → Reading α} {Says : Scalar → α → Prop} {f : α → Reading β}
    {S : α → β → Prop} (h : d.ReadsAs read Says)
    (hf : ∀ a, (f a).Finds d.maxFollowed 0 (S a)) :
    d.ReadsAs (fun t => read t >>= f) fun s b => ∃ a, Says s a ∧ S a b := by
  intro t
  refine ((h t).bind fun a _ => hf a).congr fun b => ?_
  constructor
  · rintro ⟨a, ⟨s, hs, ha⟩, hb⟩
    exact ⟨s, hs, a, ha, hb⟩
  · rintro ⟨s, hs, a, ha, hb⟩
    exact ⟨a, ⟨s, hs, ha⟩, hb⟩

/-- A scalar that is read as an integer: a plain one, or one of several lines with the tag. -/
def IsIntegral (s : Scalar) : Prop :=
  s.style = .plain ∨ s.style = .literal ∧ s.tag = some (Text.encode "tag:yaml.org,2002:int")

theorem mayBe_int_iff {s : Scalar} : Schema.mayBe "int" s = true ↔ IsIntegral s := by
  have hcore : Schema.coreTag "int" = Text.encode "tag:yaml.org,2002:int" := rfl
  simp [Schema.mayBe, IsIntegral, hcore]

theorem readsAs_int : d.ReadsAs d.int fun s i => IsIntegral s ∧ Schema.IsInteger s.text.toList i ∧
    -0x8000000000000000 ≤ i ∧ i < 0x10000000000000000 := by
  intro t
  refine (d.finds_scalar t).bind (j := 0) fun s _ => ?_
  rw [← mayBe_int_iff]
  split
  · next h =>
    refine (finds_ofOption _).congr fun i => ?_
    rw [Schema.int?_eq_some_iff, h]
    simp
  · next h => exact (finds_throw _ 0).congr fun i => by simp [h]

theorem isEmpty_iff {s : Scalar} : isEmpty s = true ↔ s.IsEmpty := by
  simp [isEmpty, Scalar.IsEmpty]

theorem finds_items (t : Tree) :
    (d.items t).Finds d.maxFollowed (aliases [t]) (d.items? t = some ·) := by
  refine d.finds_follow_bind (fun u => ?_) t
  cases u with
  | list tag items mark => exact (finds_pure items).congr fun _ => by simp [Tree.items?, eq_comm]
  | scalar s mark =>
    simp only [isEmpty_iff]
    split
    · next h => exact (finds_pure []).congr fun _ => by simp [Tree.items?, h, eq_comm]
    · next h => exact (finds_throw _ _).congr fun _ => by simp [Tree.items?, h]
  | _ => exact (finds_throw _ _).congr fun _ => by simp [Tree.items?]

/-! ## Members -/

theorem under_cons (k : String) (m : Tree × Tree) (members : List (Tree × Tree)) :
    d.under k (m :: members) =
      if d.text? m.1 = some k then m.2 :: d.under k members else d.under k members := by
  rw [under, List.filter_cons]
  by_cases hk : d.text? m.1 = some k
  · rw [if_pos hk, if_pos (decide_eq_true hk)]
    rfl
  · rw [if_neg hk, if_neg (by simpa using hk)]
    rfl

/-- Where these are the texts of its keys, a mapping has one value of a key for each time that the
key stands there, and the first of them is found. -/
theorem under_of_keys {k : String} {members : List (Tree × Tree)} {keys : List String}
    (h : List.Forall₂ (fun m key => d.text? m.1 = some key) members keys) :
    (d.under k members).length = keys.count k ∧
      (keys.zip (members.map Prod.snd)).lookup k = (d.under k members).head? := by
  induction h with
  | nil => exact ⟨rfl, rfl⟩
  | @cons m key members keys hm _ ih =>
    rw [under_cons, hm, List.map_cons, List.zip_cons_cons, List.lookup_cons, List.count_cons]
    by_cases hk : key = k
    · simp [hk, ih.1]
    · simp [hk, beq_false_of_ne (Ne.symm hk), ih.1, ih.2]

theorem exists_keys_iff {members : List (Tree × Tree)} :
    (∃ keys, List.Forall₂ (fun m key => d.text? m.1 = some key) members keys) ↔
      ∀ m ∈ members, (d.text? m.1).isSome = true := by
  induction members with
  | nil => exact ⟨fun _ => nofun, fun _ => ⟨[], .nil⟩⟩
  | cons m members ih =>
    rw [List.forall_mem_cons, ← ih, Option.isSome_iff_exists]
    constructor
    · rintro ⟨_, h⟩
      cases h with
      | cons h hr => exact ⟨⟨_, h⟩, _, hr⟩
    · rintro ⟨⟨key, h⟩, keys, hr⟩
      exact ⟨key :: keys, .cons h hr⟩

/-- The keys of a mapping are texts, and none of `names` is there twice. -/
structure HasFields (names : List String) (members : List (Tree × Tree)) : Prop where
  texts : ∀ m ∈ members, (d.text? m.1).isSome = true
  once : ∀ k ∈ names, (d.under k members).length ≤ 1

/-- The values of `names` in a mapping. -/
def fieldsOf (names : List String) (members : List (Tree × Tree)) (k : String) : Option Tree :=
  if k ∈ names then (d.under k members).head? else none

/-- Nothing is lost of a key that is there once at most. -/
theorem HasFields.toList_fieldsOf {d : Document} {names : List String}
    {members : List (Tree × Tree)} {k : String} (h : d.HasFields names members) (hk : k ∈ names) :
    (d.fieldsOf names members k).toList = d.under k members := by
  have honce := h.once k hk
  rw [fieldsOf, if_pos hk]
  generalize d.under k members = values at honce
  match values with
  | [] => rfl
  | [t] => rfl
  | t :: u :: r => simp at honce

theorem finds_fields_mapping {names : List String} {members : List (Tree × Tree)} :
    (do
      let keys ← members.mapM fun e => d.text e.1
      if names.any fun k => 2 ≤ keys.count k then throw .unfit
      else
        let values := keys.zip (members.map Prod.snd)
        return fun k => if names.contains k then values.lookup k else none :
      Reading (String → Option Tree)).Finds d.maxFollowed (aliases (members.map Prod.fst))
        fun field => d.HasFields names members ∧ field = d.fieldsOf names members := by
  have hkeys := finds_mapM (l := members) (R := fun m key => d.text? m.1 = some key)
    fun m _ => d.finds_text m.1
  rw [← aliases_flatMap, ← List.map_eq_flatMap] at hkeys
  refine (hkeys.bind (j := 0) (S := fun keys field => (∀ k ∈ names, keys.count k ≤ 1) ∧
    field = d.fieldsOf names members) fun keys hforall => ?_).congr fun field => ?_
  · have hvalues : (fun k => if names.contains k then
        (keys.zip (members.map Prod.snd)).lookup k else none) = d.fieldsOf names members := by
      funext k
      simp only [fieldsOf, List.contains_iff_mem, (d.under_of_keys hforall).2]
    have hany : (names.any fun k => 2 ≤ keys.count k) = true ↔ ¬ ∀ k ∈ names, keys.count k ≤ 1 := by
      simp only [List.any_eq_true, decide_eq_true_eq, not_forall, exists_prop, Nat.not_le]
      rfl
    dsimp only
    rw [hvalues]
    split
    · next h => exact (finds_throw _ _).congr fun _ => by simp [hany.1 h]
    · next h => exact (finds_pure _).congr fun _ => (and_iff_right (not_not.1 (mt hany.2 h))).symm
  · constructor
    · rintro ⟨keys, hforall, honce, hfield⟩
      refine ⟨⟨d.exists_keys_iff.1 ⟨keys, hforall⟩, fun k hk => ?_⟩, hfield⟩
      rw [(d.under_of_keys hforall).1]
      exact honce k hk
    · rintro ⟨⟨htexts, honce⟩, hfield⟩
      obtain ⟨keys, hforall⟩ := d.exists_keys_iff.2 htexts
      refine ⟨keys, hforall, fun k hk => ?_, hfield⟩
      rw [← (d.under_of_keys hforall).1]
      exact honce k hk

theorem finds_fields (names : List String) (t : Tree) :
    (d.fields names t).Finds d.maxFollowed
      (aliases [t] + aliases (((d.members? t).getD []).map Prod.fst)) fun field =>
      ∃ members, d.members? t = some members ∧ d.HasFields names members ∧
        field = d.fieldsOf names members := by
  refine ((d.finds_follow t).bind (S := fun u field => ∃ members, u.members? = some members ∧
    d.HasFields names members ∧ field = d.fieldsOf names members) fun u hu => ?_).congr
      fun field => ?_
  · cases u with
    | mapping tag members mark =>
      have hmembers : d.members? t = some members := by
        rw [Document.members?, hu]
        rfl
      rw [hmembers]
      exact d.finds_fields_mapping.congr fun field => by simp [Tree.members?]
    | scalar s mark =>
      simp only [isEmpty_iff]
      split
      · next h =>
        have hmembers : d.members? t = some [] := by
          rw [Document.members?, hu]
          exact if_pos h
        have hnone : (fun _ => none) = d.fieldsOf names [] := by
          funext k
          simp [fieldsOf, under]
        have hfields : d.HasFields names [] := ⟨nofun, fun _ _ => Nat.zero_le 1⟩
        rw [hmembers, hnone]
        exact (finds_pure _).congr fun field => by simp [Tree.members?, h, hfields]
      · next h => exact (finds_throw _ _).congr fun _ => by simp [Tree.members?, h]
    | _ => exact (finds_throw _ _).congr fun _ => by simp [Tree.members?]
  · constructor
    · rintro ⟨u, hu, members, hmembers, h⟩
      exact ⟨members, by rw [members?, hu]; exact hmembers, h⟩
    · rintro ⟨members, hmembers, h⟩
      obtain ⟨u, hu, hmembers⟩ := Option.bind_eq_some_iff.1 hmembers
      exact ⟨u, hu, members, hmembers, h⟩

/-! ## Values of keys -/

/-- What may be left out: there is no value, or it is null, or it says something. -/
inductive Optional (Says : Scalar → α → Prop) : List Tree → Option α → Prop
  | absent : Optional Says [] none
  | null {t : Tree} {s : Scalar} (h : d.scalar? t = some s) (hs : s.IsNull) : Optional Says [t] none
  | value {t : Tree} {s : Scalar} {a : α} (h : d.scalar? t = some s) (hs : s.IsPresent)
      (ha : Says s a) : Optional Says [t] (some a)

/-- No alias stands for another alias, or for a place where the document breaks off. -/
def Resolved : Prop := ∀ n t, d.targets.lookup n = some t → t.isNode = true

theorem isNode_of_node? (hd : d.Resolved) {t u : Tree} (h : d.node? t = some u) :
    u.isNode = true := by
  cases t with
  | hole => cases h
  | reference n => exact hd n u h
  | scalar | list | mapping =>
    cases h
    rfl

theorem finds_present (t : Tree) :
    (d.present t).Finds d.maxFollowed (aliases [t]) fun found => ∃ u, d.node? t = some u ∧
      ((∃ s, u.scalar? = some s ∧ s.IsNull) ∧ found = none ∨
        (∀ s, u.scalar? = some s → s.IsPresent) ∧ found = some u) := by
  refine (d.finds_follow t).bind (j := 0) fun u _ => ?_
  cases u with
  | scalar s mark =>
    refine ((finds_ofOption (isAbsent? s)).bind (j := 0) fun absent _ => finds_pure _).congr
      fun found => ?_
    rw [or_comm]
    simp [Tree.scalar?, ← Scalar.isAbsent?_eq_true_iff, ← Scalar.isAbsent?_eq_false_iff]
  | _ => exact (finds_pure _).congr fun _ => by simp [Tree.scalar?]

variable {d} {read : Tree → Reading α} {Says : Scalar → α → Prop}

theorem finds_required (h : d.ReadsAs read Says) (value : Option Tree) :
    (required read value).Finds d.maxFollowed (aliases value.toList) fun a =>
      ∃ t s, value = some t ∧ d.scalar? t = some s ∧ Says s a := by
  cases value with
  | none => exact (finds_throw _ _).congr fun _ => by simp
  | some t => exact (h t).congr fun _ => by simp

theorem finds_optional (hd : d.Resolved) (h : d.ReadsAs read Says) (value : Option Tree) :
    (d.optional read value).Finds d.maxFollowed (aliases value.toList)
      (d.Optional Says value.toList) := by
  cases value with
  | none =>
    refine (finds_pure none).congr fun found => ?_
    constructor
    · rintro rfl
      exact .absent
    · rintro ⟨⟩
      rfl
  | some t =>
    refine ((d.finds_present t).bind (j := 0) (S := fun found a? => found = none ∧ a? = none ∨
      ∃ u s a, found = some u ∧ u.scalar? = some s ∧ Says s a ∧ a? = some a)
      fun found hfound => ?_).congr fun a? => ?_
    · cases found with
      | none => exact (finds_pure none).congr fun _ => by simp
      | some u =>
        -- what is present is a node of its own, so nothing is followed to read it
        obtain ⟨u', hu, ⟨-, hnone⟩ | ⟨-, hsome⟩⟩ := hfound
        · cases hnone
        · cases hsome
          have hnode := d.isNode_of_node? hd hu
          have hread := h u
          rw [aliases_of_isNode hnode] at hread
          refine (hread.bind (j := 0) fun a _ => finds_pure (some a)).congr fun a? => ?_
          rw [scalar?, d.node?_of_isNode hnode, Option.bind_some]
          constructor
          · rintro ⟨a, ⟨s, hs, ha⟩, rfl⟩
            exact Or.inr ⟨u, s, a, rfl, hs, ha, rfl⟩
          · rintro (⟨hnone, -⟩ | ⟨_, s, a, hfound, hs, ha, rfl⟩)
            · cases hnone
            · cases hfound
              exact ⟨a, ⟨s, hs, ha⟩, rfl⟩
    · have hscalar : ∀ {u : Tree} {s : Scalar}, d.node? t = some u → u.scalar? = some s →
          d.scalar? t = some s := fun hu hs => Option.bind_eq_some_iff.2 ⟨_, hu, hs⟩
      constructor
      · rintro ⟨_, ⟨u, hu, ⟨⟨s, hs, hnull⟩, rfl⟩ | ⟨hpresent, rfl⟩⟩, ⟨hfound, rfl⟩ |
          ⟨_, s', a, hfound, hs', ha, rfl⟩⟩
        · exact .null (hscalar hu hs) hnull
        · cases hfound
        · cases hfound
        · cases hfound
          exact .value (hscalar hu hs') (hpresent s' hs') ha
      · intro h
        cases h with
        | null h hs =>
          obtain ⟨u, hu, hscalar⟩ := Option.bind_eq_some_iff.1 h
          exact ⟨none, ⟨u, hu, Or.inl ⟨⟨_, hscalar, hs⟩, rfl⟩⟩, Or.inl ⟨rfl, rfl⟩⟩
        | @value _ s a h hs ha =>
          obtain ⟨u, hu, hscalar⟩ := Option.bind_eq_some_iff.1 h
          refine ⟨some u, ⟨u, hu, Or.inr ⟨fun s' hs' => ?_, rfl⟩⟩,
            Or.inr ⟨u, s, a, rfl, hscalar, ha, rfl⟩⟩
          cases hscalar.symm.trans hs'
          exact hs

section Fields

variable {names : List String} {members : List (Tree × Tree)} {k : String}

/-- What is found under a key that must be there. -/
theorem finds_required_field (h : d.ReadsAs read Says) (hfields : d.HasFields names members)
    (hk : k ∈ names) :
    (required read (d.fieldsOf names members k)).Finds d.maxFollowed
      (aliases (d.under k members)) fun a =>
        ∃ t s, d.under k members = [t] ∧ d.scalar? t = some s ∧ Says s a := by
  have hrequired := finds_required h (d.fieldsOf names members k)
  rw [hfields.toList_fieldsOf hk] at hrequired
  refine hrequired.congr fun a => exists_congr fun t => exists_congr fun s => and_congr_left' ?_
  rw [← hfields.toList_fieldsOf hk, Option.toList_eq_singleton_iff]

/-- What is found under a key that may be left out. -/
theorem finds_optional_field (hd : d.Resolved) (h : d.ReadsAs read Says)
    (hfields : d.HasFields names members) (hk : k ∈ names) :
    (d.optional read (d.fieldsOf names members k)).Finds d.maxFollowed
      (aliases (d.under k members)) (d.Optional Says (d.under k members)) := by
  have hoptional := finds_optional hd h (d.fieldsOf names members k)
  rwa [hfields.toList_fieldsOf hk] at hoptional

end Fields

/-- What may be left out is there once at most. -/
theorem Optional.length_le_one {values : List Tree} {a : Option α} (h : d.Optional Says values a) :
    values.length ≤ 1 := by
  cases h with
  | absent => exact Nat.zero_le 1
  | null | value => exact Nat.le_refl 1

end Document

/-! ## Documents -/

theorem OpenTree.isNode_close (o : OpenTree) : o.close.isNode = true := by
  cases o with
  | list => rfl
  | mapping tag entries key mark => cases key <;> rfl

namespace Tree

theorem isNode_breakOff {around : List OpenTree} (h : around ≠ []) :
    (breakOff around).isNode = true := by
  have hfold : ∀ (around : List OpenTree) (t : Tree), t.isNode = true →
      (around.foldl (fun t o => (o.add t).close) t).isNode = true := by
    intro around
    induction around with
    | nil => exact fun _ ht => ht
    | cons o around ih => exact fun t _ => ih _ (OpenTree.isNode_close _)
  cases around with
  | nil => exact absurd rfl h
  | cons o around => exact hfold around _ (OpenTree.isNode_close _)

/-- What is complete with the end of a collection is a node. -/
theorem isNode_within {around : List OpenTree} (h : around ≠ []) (es : List Event) :
    (within around es).isNode = true := by
  fun_induction within around es with
  | case1 around => exact isNode_breakOff h
  | case2 _ _ _ _ _ ih | case3 _ _ _ _ _ ih | case5 _ _ _ _ ih | case7 _ _ _ _ _ _ ih
  | case8 _ _ _ _ ih | case9 _ _ _ _ ih => exact ih (List.cons_ne_nil _ _)
  | case4 | case6 => exact absurd rfl h
  | case10 around | case11 around =>
    obtain ⟨o, around, rfl⟩ := List.exists_cons_of_ne_nil h
    exact o.isNode_close

/-- What has a number is a node. -/
theorem isNode_ofEvents {e : Event} {n : Nat} (h : e.anchor? = some n) (r : List Event) :
    (ofEvents (e :: r)).isNode = true := by
  cases e with
  | scalar | listStart | mappingStart =>
    rw [ofEvents, within]
    first | rfl | exact isNode_within (List.cons_ne_nil _ _) r
  | reference | listEnd | mappingEnd => cases h

end Tree

theorem Targets.isNode_ofEvents {es : List Event} : ∀ {targets : Targets},
    (∀ target ∈ targets, target.2.isNode = true) →
      ∀ target ∈ Targets.ofEvents targets es, target.2.isNode = true := by
  induction es with
  | nil => exact fun h => h
  | cons e r ih =>
    intro targets h
    refine ih fun target htarget => ?_
    rcases List.mem_append.1 htarget with htarget | htarget
    · rw [Option.mem_toList, Option.map_eq_some_iff] at htarget
      obtain ⟨n, hn, rfl⟩ := htarget
      exact Tree.isNode_ofEvents hn r
    · exact h target htarget

namespace Document

theorem resolved_ofEvents (events : List Event) (fault : Option Fault) (alone : Bool) :
    (ofEvents events fault alone).Resolved := by
  intro n t h
  obtain ⟨before, after, htargets, -⟩ := List.lookup_eq_some_iff.1 h
  have hmem : (n, t) ∈ Targets.ofEvents [] events := by
    have hsplit : Targets.ofEvents [] events = before ++ (n, t) :: after := htargets
    rw [hsplit]
    exact List.mem_append_right _ List.mem_cons_self
  exact Targets.isNode_ofEvents (fun _ h => absurd h List.not_mem_nil) (n, t) hmem

/-- **No alias of a document that is read stands for another alias.** -/
theorem resolved_of_read {bs : Bytes} {d : Document} (h : Document.read bs = .ok d) :
    d.Resolved := by
  unfold Document.read at h
  simp only at h
  split at h
  · cases h
    exact resolved_ofEvents _ _ _
  · split at h
    · cases h
      intro n t h
      cases h
    · cases h
      exact resolved_ofEvents _ _ _

end Document

/-- **What is found in a text.** The text is one document without a fault, and no more aliases are
followed than it allows. -/
theorem readDocument_eq_ok_iff {read : Document → Tree → Reading α} {count : Document → Nat}
    {R : Document → α → Prop} (h : ∀ d : Document, d.Resolved →
      (read d d.root).Finds d.maxFollowed (count d) (R d)) {bs : Bytes} {a : α} :
    readDocument read bs = .ok a ↔ ∃ d, Document.read bs = .ok d ∧ d.fault = none ∧
      d.alone = true ∧ R d a ∧ count d ≤ d.maxFollowed := by
  unfold readDocument
  simp only [bind_eq_ok_iff]
  refine exists_congr fun d => and_congr_right fun hd => ?_
  have hread : ∀ b, (read d d.root).run' 0 = .ok b ↔ R d b ∧ count d ≤ d.maxFollowed := by
    intro b
    have hrun : (read d d.root).run' 0 = ((read d d.root).run 0).map Prod.fst := rfl
    rw [hrun, map_eq_ok_iff]
    have hfinds := h d (Document.resolved_of_read hd) 0
    constructor
    · rintro ⟨⟨b, m⟩, hb, rfl⟩
      obtain ⟨hR, rfl, hle⟩ := (hfinds b m (Nat.zero_le _)).1 hb
      exact ⟨hR, by omega⟩
    · rintro ⟨hR, hle⟩
      exact ⟨(b, count d), (hfinds b _ (Nat.zero_le _)).2 ⟨hR, by omega, hle⟩, rfl⟩
  simp only [hread]
  cases d.fault with
  | some fault => simp
  | none =>
    cases d.alone with
    | false => simp
    | true =>
      have hpure : ∀ b, (pure b : Except Fault α) = .ok b := fun _ => rfl
      simp [hpure]

end SecretMount.Yaml
