/-!
# Keyed collections

A keyed collection is a finite map from texts to values that remembers the order in which
its keys came in. No key occurs twice, which is part of the type.

* `Keyed.find?_insert` says what an insertion changes: the value under its key, and
  nothing else;
* `Keyed.entries_ofList` says that distinct keys keep all their values and their order;
* `Keyed.find?_filterMap` says what a selection keeps;
* `Keyed.Same` compares two collections as finite maps, without their order;
* `Keyed.namedBy_iff` says what the entries are if values are stored under names of their own.
-/

namespace WorkflowTree

/-- Values under distinct keys, in the order in which the keys came in. -/
structure Keyed (α : Type) where
  entries : List (String × α)
  nodup : (entries.map Prod.fst).Nodup
  deriving DecidableEq

namespace Keyed

variable {α β : Type}

/-- The collection without values. -/
def empty : Keyed α := ⟨[], List.nodup_nil⟩

instance : Inhabited (Keyed α) := ⟨empty⟩

instance : EmptyCollection (Keyed α) := ⟨empty⟩

instance [Repr α] : Repr (Keyed α) := ⟨fun m n => reprPrec m.entries n⟩

/-- A collection is determined by its entries. -/
theorem eq_of_entries {m n : Keyed α} (h : m.entries = n.entries) : m = n := by
  cases m
  cases n
  cases h
  rfl

/-! ### Views -/

/-- The keys, in order. -/
def keys (m : Keyed α) : List String := m.entries.map Prod.fst

/-- The values, in the order of their keys. -/
def values (m : Keyed α) : List α := m.entries.map Prod.snd

/-- The number of keys. -/
def size (m : Keyed α) : Nat := m.entries.length

/-- The value under a key. -/
def find? (m : Keyed α) (key : String) : Option α := m.entries.lookup key

/-- The key has a value. -/
def contains (m : Keyed α) (key : String) : Bool := (m.find? key).isSome

/-- Two collections are the same finite map, whatever their orders are. -/
def Same (m n : Keyed α) : Prop := ∀ key, m.find? key = n.find? key

theorem Same.refl (m : Keyed α) : m.Same m := fun _ => rfl

theorem Same.symm {m n : Keyed α} (h : m.Same n) : n.Same m := fun k => (h k).symm

theorem Same.trans {m n o : Keyed α} (h : m.Same n) (h' : n.Same o) : m.Same o :=
  fun k => (h k).trans (h' k)

@[simp] theorem find?_empty (key : String) : (empty : Keyed α).find? key = none := rfl

theorem lookup_cons (key : String) (e : String × α) (es : List (String × α)) :
    (e :: es).lookup key = if key = e.1 then some e.2 else es.lookup key := by
  rcases e with ⟨k, v⟩
  by_cases h : key = k
  · simp [h]
  · have hb : (key == k) = false := by simpa using h
    simp [List.lookup_cons, hb, h]

theorem lookup_eq_none {key : String} {es : List (String × α)} :
    es.lookup key = none ↔ key ∉ es.map Prod.fst := by
  induction es with
  | nil => simp
  | cons e es ih =>
    rw [lookup_cons, List.map_cons, List.mem_cons, not_or, ← ih]
    by_cases h : key = e.1 <;> simp [h]

theorem lookup_eq_some {key : String} {v : α} {es : List (String × α)}
    (nodup : (es.map Prod.fst).Nodup) : es.lookup key = some v ↔ (key, v) ∈ es := by
  induction es with
  | nil => simp
  | cons e es ih =>
    rcases e with ⟨k, w⟩
    rw [List.map_cons, List.nodup_cons] at nodup
    rw [lookup_cons, List.mem_cons, ← ih nodup.2]
    by_cases h : key = k
    · have : es.lookup k = none := lookup_eq_none.2 nodup.1
      simp [h, this, eq_comm]
    · simp [h]

theorem find?_eq_some {m : Keyed α} {key : String} {v : α} :
    m.find? key = some v ↔ (key, v) ∈ m.entries := lookup_eq_some m.nodup

theorem find?_eq_none {m : Keyed α} {key : String} : m.find? key = none ↔ key ∉ m.keys :=
  lookup_eq_none

theorem mem_values {m : Keyed α} {a : α} : a ∈ m.values ↔ ∃ key, m.find? key = some a := by
  simp [values, find?_eq_some]

theorem contains_iff {m : Keyed α} {key : String} : m.contains key = true ↔ key ∈ m.keys := by
  rw [contains, Option.isSome_iff_ne_none, Ne, find?_eq_none, Decidable.not_not]

/-! ### Names -/

/-- Each value is stored under its own name. -/
def NamedBy (name : α → String) (m : Keyed α) : Prop :=
  ∀ key a, m.find? key = some a → name a = key

theorem NamedBy.of_same {name : α → String} {m n : Keyed α} (h : m.NamedBy name)
    (hmn : m.Same n) : n.NamedBy name := fun key a ha => h key a ((hmn key).trans ha)

/-- The names of the values then make up the entries. -/
theorem namedBy_iff {name : α → String} {m : Keyed α} :
    m.NamedBy name ↔ m.entries = m.values.map fun a => (name a, a) := by
  have hmem : m.NamedBy name ↔ ∀ e ∈ m.entries, id e = (name e.2, e.2) := by
    constructor
    · rintro h ⟨key, a⟩ he
      rw [h key a (find?_eq_some.2 he), id]
    · intro h key a ha
      exact (Prod.mk.inj (h _ (find?_eq_some.1 ha))).1.symm
  rw [hmem, ← List.map_inj_left, List.map_id, values, List.map_map]
  rfl

/-! ### Insertion -/

/-- Puts a value under a key of a list of entries: in place of the value that the key has,
or at the end. -/
def put (key : String) (v : α) : List (String × α) → List (String × α)
  | [] => [(key, v)]
  | e :: es => if e.1 = key then (key, v) :: es else e :: put key v es

theorem mem_keys_put {key k : String} {v : α} {es : List (String × α)} :
    k ∈ (put key v es).map Prod.fst ↔ k = key ∨ k ∈ es.map Prod.fst := by
  induction es with
  | nil => simp [put]
  | cons e es ih =>
    by_cases h : e.1 = key
    · simp [put, h]
    · simp only [put, h, if_false, List.map_cons, List.mem_cons, ih]
      exact or_left_comm

theorem nodup_put {key : String} {v : α} {es : List (String × α)}
    (nodup : (es.map Prod.fst).Nodup) : ((put key v es).map Prod.fst).Nodup := by
  induction es with
  | nil => simp [put]
  | cons e es ih =>
    rw [List.map_cons, List.nodup_cons] at nodup
    by_cases h : e.1 = key
    · rw [put, if_pos h, List.map_cons, List.nodup_cons]
      exact ⟨h ▸ nodup.1, nodup.2⟩
    · rw [put, if_neg h, List.map_cons, List.nodup_cons, mem_keys_put, not_or]
      exact ⟨⟨h, nodup.1⟩, ih nodup.2⟩

theorem lookup_put (key k : String) (v : α) (es : List (String × α)) :
    (put key v es).lookup k = if k = key then some v else es.lookup k := by
  induction es with
  | nil => rw [put, lookup_cons]
  | cons e es ih =>
    by_cases h : e.1 = key
    · rw [put, if_pos h, lookup_cons, lookup_cons, h]
      by_cases hk : k = key <;> simp [hk]
    · rw [put, if_neg h, lookup_cons, lookup_cons, ih]
      by_cases hk : k = e.1
      · simp [hk, h]
      · simp [hk]

theorem put_of_not_mem {key : String} {v : α} {es : List (String × α)}
    (h : key ∉ es.map Prod.fst) : put key v es = es ++ [(key, v)] := by
  induction es with
  | nil => rfl
  | cons e es ih =>
    rw [List.map_cons, List.mem_cons, not_or] at h
    simp [put, Ne.symm h.1, ih h.2]

/-- Puts a value under a key. A value that the key had is replaced in its place. -/
def insert (m : Keyed α) (key : String) (v : α) : Keyed α :=
  ⟨put key v m.entries, nodup_put m.nodup⟩

theorem find?_insert (m : Keyed α) (key k : String) (v : α) :
    (m.insert key v).find? k = if k = key then some v else m.find? k :=
  lookup_put key k v m.entries

theorem entries_insert {m : Keyed α} {key : String} {v : α} (h : key ∉ m.keys) :
    (m.insert key v).entries = m.entries ++ [(key, v)] := put_of_not_mem h

theorem mem_keys_insert {m : Keyed α} {key k : String} {v : α} :
    k ∈ (m.insert key v).keys ↔ k = key ∨ k ∈ m.keys := mem_keys_put

/-- The collection of a list of entries. Of the values under one key the last one counts. -/
def ofList (es : List (String × α)) : Keyed α :=
  es.foldl (fun m e => m.insert e.1 e.2) empty

theorem entries_foldl_insert {es : List (String × α)} {m : Keyed α}
    (nodup : ((m.entries ++ es).map Prod.fst).Nodup) :
    (es.foldl (fun m e => m.insert e.1 e.2) m).entries = m.entries ++ es := by
  induction es generalizing m with
  | nil => simp
  | cons e es ih =>
    have hnot : e.1 ∉ m.keys := by
      rw [List.map_append, List.map_cons, List.nodup_append] at nodup
      exact fun hm => nodup.2.2 _ hm _ (List.mem_cons_self ..) rfl
    have hm : (m.insert e.1 e.2).entries ++ es = m.entries ++ e :: es := by
      simp [entries_insert hnot]
    rw [List.foldl_cons, ih (hm ▸ nodup), hm]

theorem entries_ofList {es : List (String × α)} (nodup : (es.map Prod.fst).Nodup) :
    (ofList es).entries = es := by
  simpa [ofList, empty] using entries_foldl_insert (m := empty) (by simpa [empty] using nodup)

/-! ### Selection -/

/-- Selects and changes the values. -/
def filterMap (m : Keyed α) (f : String → α → Option β) : Keyed β where
  entries := m.entries.filterMap fun e => (f e.1 e.2).map (e.1, ·)
  nodup := by
    have : ((m.entries.filterMap fun e => (f e.1 e.2).map (e.1, ·)).map Prod.fst).Sublist
        (m.entries.map Prod.fst) := by
      induction m.entries with
      | nil => exact List.Sublist.slnil
      | cons e es ih =>
        rcases h : f e.1 e.2 with - | b
        · simpa [h] using ih.cons e.1
        · simpa [h] using ih.cons_cons e.1
    exact this.nodup m.nodup

theorem find?_filterMap (m : Keyed α) (f : String → α → Option β) (key : String) :
    (m.filterMap f).find? key = (m.find? key).bind (f key) := by
  ext b
  rw [find?_eq_some, Option.bind_eq_some_iff]
  simp only [filterMap, List.mem_filterMap, Option.map_eq_some_iff, Prod.mk.injEq,
    find?_eq_some]
  constructor
  · rintro ⟨e, he, b', hb, rfl, rfl⟩
    exact ⟨e.2, he, hb⟩
  · rintro ⟨a, ha, hb⟩
    exact ⟨(key, a), ha, b, hb, rfl, rfl⟩

end Keyed

end WorkflowTree
