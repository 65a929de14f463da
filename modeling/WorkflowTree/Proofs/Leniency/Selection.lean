import WorkflowTree.Proofs.Grammar.Pruning
import WorkflowTree.Proofs.Leniency.Tolerance

/-!
# Reading what is left of a mapping

When entries are taken out of a mapping, a strict reader of what is left finds nothing that a
lenient reader of the mapping does not find, and it gives the same value.  This is what
`Checked.NoWorse` says of two checked values, and like tolerating it goes through all ways in
which readers are put together.

Some problems do vanish: an unknown key that is repeated is a problem for a lenient reader too,
and is gone when the key is.  So the problems are some of the others, in their order.
-/

namespace WorkflowTree

variable {α β : Type}

/-! ### Checked values -/

@[simp] theorem mismatch_pruneItems (inner : Node → Node) (n : Node) (what expected : String) :
    (mismatch (n.pruneItems inner) what expected : Checked (Option α)) =
      mismatch n what expected := by
  cases n <;> rfl

namespace Checked

/-- A checked value is no worse than another one: it has the same value, and no other problems. -/
structure NoWorse (c d : Checked α) : Prop where
  value : c.value = d.value
  problems : c.problems.Sublist d.problems

theorem NoWorse.refl (c : Checked α) : c.NoWorse c := ⟨rfl, .refl _⟩

theorem NoWorse.bind {c d : Checked α} {f g : α → Checked β} (h : c.NoWorse d)
    (hf : ∀ a, (f a).NoWorse (g a)) : (c >>= f).NoWorse (d >>= g) where
  value := by
    rw [value_bind, value_bind, h.value]
    exact (hf d.value).value
  problems := by
    rw [problems_bind, problems_bind, h.value]
    exact h.problems.append (hf d.value).problems

theorem NoWorse.map {c d : Checked α} (h : c.NoWorse d) (f : α → β) :
    (f <$> c).NoWorse (f <$> d) where
  value := congrArg f h.value
  problems := by simpa using h.problems

theorem optionMap_andThen (c : Checked (Option α)) (k : α → Checked (Option β)) {γ : Type}
    (f : β → γ) : Option.map f <$> c.andThen k = c.andThen fun a => Option.map f <$> k a := by
  rcases e : c.value with - | a
  · rw [andThen_of_none e, andThen_of_none e]
    exact Checked.ext rfl (problems_map _ _)
  · rw [andThen_of_some e, andThen_of_some e]
    exact Checked.ext rfl (by simp)

theorem NoWorse.andThen {c : Checked (Option α)} {d : Checked (Option β)} {f : β → α}
    {γ : Type} {k : α → Checked (Option γ)} {k' : β → Checked (Option γ)}
    (h : c.NoWorse (Option.map f <$> d)) (hk : ∀ b, (k (f b)).NoWorse (k' b)) :
    (c.andThen k).NoWorse (d.andThen k') := by
  have hvalue := h.value
  have hproblems := h.problems
  rw [value_map] at hvalue
  rw [problems_map] at hproblems
  rcases e : d.value with - | b
  · rw [e, Option.map_none] at hvalue
    rw [andThen_of_none e, andThen_of_none hvalue]
    exact ⟨rfl, hproblems⟩
  · rw [e, Option.map_some] at hvalue
    rw [andThen_of_some e, andThen_of_some hvalue]
    exact ⟨(hk b).value, hproblems.append (hk b).problems⟩

theorem NoWorse.flatMap {cs : List β} {f g : β → Checked α} (h : ∀ b, (f b).NoWorse (g b)) :
    (cs.flatMap fun b => (f b).problems).Sublist (cs.flatMap fun b => (g b).problems) := by
  induction cs with
  | nil => exact .refl _
  | cons b cs ih => exact (h b).problems.append ih

theorem NoWorse.collect {bs : List β} {f g : β → Checked (Option α)}
    (h : ∀ b, (f b).NoWorse (g b)) :
    (collect (bs.map f)).NoWorse (collect (bs.map g)) where
  value := by simp [List.filterMap_map, (h _).value]
  problems := by simpa [List.flatMap_map] using NoWorse.flatMap h

end Checked

open Checked

/-! ### Entries -/

namespace Entry

/-- What is left of an entry when its mapping is pruned. -/
def select (f : String → Option (Node → Node)) (e : Entry) : Option Entry :=
  (f e.key.value).map fun g => ⟨e.key, g e.value⟩

variable {f : String → Option (Node → Node)}

theorem key_of_select {e e' : Entry} (h : e.select f = some e') : e'.key = e.key := by
  obtain ⟨g, -, rfl⟩ := Option.map_eq_some_iff.mp h
  rfl

theorem filterMap_ofPair?_select (kvs : List (Node × Node)) :
    (kvs.filterMap (Node.selectEntry f)).filterMap ofPair? =
      (kvs.filterMap ofPair?).filterMap (select f) := by
  rw [List.filterMap_filterMap, List.filterMap_filterMap]
  congr 1
  funext ⟨k, v⟩
  rcases k with _ | ⟨text, plain, pos⟩ | _ | _
  · rfl
  · rcases h : f text with - | g <;>
      simp [Node.selectEntry, ofPair?, select, Node.text?, Node.leaf?, h]
  · rfl
  · rfl

/-- Only keys that are no texts are reported here, and these are kept. -/
theorem problems_readAll_select (what : String) (n : Node) :
    (readAll what (n.select f)).problems = (readAll what n).problems := by
  rcases n with _ | _ | _ | ⟨kvs, pos⟩
  · rfl
  · rfl
  · rfl
  · simp only [readAll, Node.select, Node.entries?, problems_map, problems_collect]
    induction kvs with
    | nil => rfl
    | cons kv kvs ih =>
      rcases kv with ⟨_ | ⟨text, plain, pos⟩ | _ | _, v⟩
      · exact congrArg (_ ++ ·) ih
      · rcases h : f text with - | g
        · rw [List.filterMap_cons_none (by simp [Node.selectEntry, Node.text?, h])]
          exact ih
        · rw [List.filterMap_cons_some (b := (.scalar text plain pos, g v))
            (by simp [Node.selectEntry, Node.text?, h])]
          exact ih
      · exact congrArg (_ ++ ·) ih
      · exact congrArg (_ ++ ·) ih

theorem noWorse_readAll (what : String) (n : Node) :
    (readAll what (n.select f)).NoWorse
      (Option.map (List.filterMap (select f)) <$> readAll what n) where
  value := by
    rw [value_map, value_readAll, value_readAll, Node.entries?_select, Option.map_map,
      Option.map_map]
    congr 1
    funext kvs
    exact filterMap_ofPair?_select kvs
  problems := by
    rw [problems_map, problems_readAll_select]

end Entry

/-! ### Sections -/

namespace Section

variable {f : String → Option (Node → Node)} {s : Section} {what key : String}

theorem keys_select_sublist (f : String → Option (Node → Node)) (es : List Entry) :
    ((es.filterMap (Entry.select f)).map fun e => e.key.value).Sublist
      (es.map fun e => e.key.value) := by
  induction es with
  | nil => exact .slnil
  | cons e es ih =>
    rcases h : e.select f with - | e'
    · rw [List.filterMap_cons_none h]
      exact ih.cons _
    · rw [List.filterMap_cons_some h, List.map_cons, List.map_cons, Entry.key_of_select h]
      exact ih.cons_cons _

/-- The entries of a section that are left when its mapping is pruned. -/
def select (s : Section) (f : String → Option (Node → Node)) : Section where
  entries := s.entries.filterMap (Entry.select f)
  nodup := (keys_select_sublist f s.entries).nodup s.nodup

theorem find?_filterMap_select (es : List Entry) (key : String) :
    (es.filterMap (Entry.select f)).find? (fun e => e.key.value == key) =
      (es.find? fun e => e.key.value == key).bind (Entry.select f) := by
  induction es with
  | nil => rfl
  | cons e es ih =>
    by_cases hkey : e.key.value = key
    · rw [List.find?_cons_of_pos (by simpa using hkey), Option.bind_some]
      rcases h : e.select f with - | e'
      · -- the key is not selected, here or later
        have hf : f key = none := by simpa [Entry.select, hkey] using h
        rw [List.filterMap_cons_none h, ih, Option.bind_eq_none_iff]
        intro e' he'
        have hkey' : e'.key.value = key := by simpa using List.find?_some he'
        simp [Entry.select, hkey', hf]
      · rw [List.filterMap_cons_some h,
          List.find?_cons_of_pos (by simpa [Entry.key_of_select h] using hkey)]
    · rw [List.find?_cons_of_neg (by simpa using hkey), ← ih]
      rcases h : e.select f with - | e'
      · rw [List.filterMap_cons_none h]
      · rw [List.filterMap_cons_some h,
          List.find?_cons_of_neg (by simpa [Entry.key_of_select h] using hkey)]

theorem find?_select (s : Section) (key : String) :
    (s.select f).find? key = (s.find? key).bind (Entry.select f) :=
  find?_filterMap_select s.entries key

theorem key_of_find? {e : Entry} (h : s.find? key = some e) : e.key.value = key := by
  simpa using List.find?_some h

/-- A key that is selected has its entry, with its value changed. -/
theorem find?_select_of_some {g : Node → Node} (h : f key = some g) :
    (s.select f).find? key = (s.find? key).map fun e => ⟨e.key, g e.value⟩ := by
  rw [find?_select]
  rcases e : s.find? key with - | entry
  · rfl
  · simp [Entry.select, key_of_find? e, h]

theorem get?_select_of_some {g : Node → Node} (h : f key = some g) :
    (s.select f).get? key = (s.get? key).map g := by
  rw [get?, get?, find?_select_of_some h, Option.map_map, Option.map_map]
  rfl

theorem has_select_of_some {g : Node → Node} (h : f key = some g) :
    (s.select f).has key = s.has key := by
  rw [has, has, find?_select_of_some h, Option.isSome_map]

/-- What is taken out of the entries is taken out of the section that is made of them, together
with the problems of repeating it. -/
theorem noWorse_foldlM_extend (what : String) (quiet : List String) (es : List Entry)
    (s : Section) :
    ((es.filterMap (Entry.select f)).foldlM (extend what quiet) (s.select f)).NoWorse
      ((·.select f) <$> es.foldlM (extend what quiet) s) := by
  induction es generalizing s with
  | nil => exact .refl _
  | cons e es ih =>
    rw [List.foldlM_cons, map_bind]
    rcases he : e.select f with - | e'
    · -- the entry is taken out, so the section stays as it is
      rw [List.filterMap_cons_none he]
      rcases hfind : s.find? e.key.value with - | first
      · have hadd : (s.add e hfind).select f = s.select f := by
          simp [select, add, List.filterMap_append, he]
        rw [extend_of_none hfind, pure_bind, ← hadd]
        exact ih _
      · rw [extend_of_some hfind]
        exact ⟨(ih s).value, (ih s).problems.trans (List.sublist_append_right ..)⟩
    · obtain ⟨g, hg, rfl⟩ := Option.map_eq_some_iff.mp he
      rw [List.filterMap_cons_some he, List.foldlM_cons]
      have hfind' := find?_select_of_some (s := s) hg
      rcases hfind : s.find? e.key.value with - | first
      · rw [hfind, Option.map_none] at hfind'
        have hadd : (s.select f).add ⟨e.key, g e.value⟩ hfind' = (s.add e hfind).select f := by
          simp [select, add, List.filterMap_append, he]
        rw [extend_of_none hfind, extend_of_none (e := ⟨e.key, g e.value⟩) hfind', hadd,
          pure_bind, pure_bind]
        exact ih _
      · rw [hfind, Option.map_some] at hfind'
        rw [extend_of_some hfind, extend_of_some (e := ⟨e.key, g e.value⟩) hfind']
        exact ⟨(ih s).value, (List.Sublist.refl _).append (ih s).problems⟩

theorem noWorse_distinct (what : String) (quiet : List String) (es : List Entry) :
    (distinct what quiet (es.filterMap (Entry.select f))).NoWorse
      ((·.select f) <$> distinct what quiet es) :=
  noWorse_foldlM_extend what quiet es empty

theorem noWorse_some_distinct (what : String) (quiet : List String) (es : List Entry) :
    (some <$> distinct what quiet (es.filterMap (Entry.select f))).NoWorse
      (Option.map (·.select f) <$> some <$> distinct what quiet es) :=
  (noWorse_distinct what quiet es).map some

/-- Reading a section of a pruned mapping is no worse than reading it of the mapping, if that
holds of what comes behind it. -/
theorem noWorse_within {n : Node} {k k' : Section → Checked (Option α)}
    (h : ∀ s, (k (s.select f)).NoWorse (k' s)) :
    (within what (n.select f) k).NoWorse (within what n k') := by
  refine NoWorse.andThen (f := (·.select f)) ?_ h
  rw [read, read, optionMap_andThen]
  exact (Entry.noWorse_readAll what n).andThen (noWorse_some_distinct what [])

/-- Permissions that are kept as they are conflict as they did. -/
theorem formConflict?_select (h : f permissionsKey = some id) (es : List Entry) :
    formConflict? what (es.filterMap (Entry.select f)) = formConflict? what es := by
  have hcandidates : (es.filterMap (Entry.select f)).filter
      (fun e => e.key.value == permissionsKey) =
        es.filter fun e => e.key.value == permissionsKey := by
    induction es with
    | nil => rfl
    | cons e es ih =>
      by_cases hkey : e.key.value = permissionsKey
      · have he : e.select f = some e := by simp [Entry.select, hkey, h]
        rw [List.filterMap_cons_some he, List.filter_cons, List.filter_cons, ih]
      · rw [List.filter_cons_of_neg (by simpa using hkey), ← ih]
        rcases he : e.select f with - | e'
        · rw [List.filterMap_cons_none he]
        · rw [List.filterMap_cons_some he,
            List.filter_cons_of_neg (by simpa [Entry.key_of_select he] using hkey)]
  rw [formConflict?, formConflict?, hcandidates]

theorem noWorse_withinOwner {n : Node} {k k' : Section → Checked (Option α)}
    (hpermissions : f permissionsKey = some id) (h : ∀ s, (k (s.select f)).NoWorse (k' s)) :
    (withinOwner what (n.select f) k).NoWorse (withinOwner what n k') := by
  refine NoWorse.andThen (f := (·.select f)) ?_ h
  rw [readWithPermissions, readWithPermissions, optionMap_andThen]
  refine (Entry.noWorse_readAll what n).andThen fun es => ?_
  rw [formConflict?_select hpermissions]
  rcases formConflict? what es with - | p
  · exact noWorse_some_distinct what [] es
  · exact (NoWorse.refl _).bind fun _ => noWorse_some_distinct what [permissionsKey] es

/-! ### Free keys -/

theorem keyed_eq_of_values {cs ds : List (String × Checked (Option α))}
    (h : cs.map (fun c => (c.1, c.2.value)) = ds.map fun d => (d.1, d.2.value)) :
    keyed cs = keyed ds := by
  have hkeyed : ∀ cs : List (String × Checked (Option α)), keyed cs =
      (cs.map fun c => (c.1, c.2.value)).filterMap fun c => c.2.map (c.1, ·) := by
    intro cs
    rw [List.filterMap_map]
    rfl
  rw [hkeyed, hkeyed, h]

theorem entries_select_free (s : Section) (inner : String → Node → Node) :
    (s.select fun key => some (inner key)).entries =
      s.entries.map fun e => ⟨e.key, inner e.key.value e.value⟩ :=
  congrFun List.filterMap_eq_map' s.entries

theorem noWorse_collect {inner : String → Node → Node} {read read' : Entry → Checked (Option α)}
    (h : ∀ e, (read ⟨e.key, inner e.key.value e.value⟩).NoWorse (read' e)) :
    ((s.select fun key => some (inner key)).collect read).NoWorse (s.collect read') := by
  constructor
  · simp only [collect, Keyed.mk.injEq]
    refine keyed_eq_of_values ?_
    rw [entries_select_free, List.map_map, List.map_map, List.map_map]
    exact List.map_congr_left fun e _ => congrArg (e.key.value, ·) (h e).value
  · simp only [collect, entries_select_free, List.map_map, List.flatMap_map]
    exact NoWorse.flatMap h

end Section

/-! ### Forms -/

namespace Form

/-- What was read of known keys is no worse than something else: it has the same value, and under
each key no other problems. -/
structure NoWorse (f g : Form α) : Prop where
  value : f.value = g.value
  fields : List.Forall₂ (fun p q => p.1 = q.1 ∧ p.2.Sublist q.2) f.fields g.fields

theorem NoWorse.pure (a : α) : (pure a : Form α).NoWorse (Pure.pure a) := ⟨rfl, .nil⟩

theorem NoWorse.bind {f g : Form α} {k k' : α → Form β} (h : f.NoWorse g)
    (hk : ∀ a, (k a).NoWorse (k' a)) : (f >>= k).NoWorse (g >>= k') where
  value := by
    rw [value_bind, value_bind, h.value]
    exact (hk g.value).value
  fields := by
    rw [fields_bind, fields_bind, h.value]
    exact List.rel_append h.fields (hk g.value).fields

theorem NoWorse.lookup {f g : Form α} (h : f.NoWorse g) {key : String} (hkey : key ∈ f.keys) :
    ∃ ps qs, f.fields.lookup key = some ps ∧ g.fields.lookup key = some qs ∧ ps.Sublist qs := by
  have hfields := h.fields
  unfold keys at hkey
  generalize f.fields = fs at hfields hkey ⊢
  generalize g.fields = gs at hfields ⊢
  induction hfields with
  | nil => cases hkey
  | @cons p q _ _ hfield _ ih =>
    rw [Keyed.lookup_cons, Keyed.lookup_cons, ← hfield.1]
    by_cases e : key = p.1
    · exact ⟨p.2, q.2, if_pos e, if_pos e, hfield.2⟩
    · rw [if_neg e, if_neg e]
      exact ih ((List.mem_cons.mp hkey).resolve_left e)

end Form

namespace Section

variable {f : String → Option (Node → Node)} {s : Section} {what key : String}

theorem noWorse_field {g : Node → Node} {read read' : Node → Checked (Option α)}
    (hkey : f key = some g) (h : ∀ n, (read (g n)).NoWorse (read' n)) :
    ((s.select f).field key read).NoWorse (s.field key read') := by
  unfold field
  rw [get?_select_of_some hkey]
  rcases s.get? key with - | n
  · exact ⟨rfl, .cons ⟨rfl, .refl _⟩ .nil⟩
  · exact ⟨(h n).value, .cons ⟨rfl, (h n).problems⟩ .nil⟩

theorem noWorse_fieldWithKey {g : Node → Node} {read read' : Node → Checked (Option α)}
    (hkey : f key = some g) (h : ∀ n, (read (g n)).NoWorse (read' n)) :
    ((s.select f).fieldWithKey key read).NoWorse (s.fieldWithKey key read') := by
  unfold fieldWithKey
  rw [find?_select_of_some hkey]
  rcases s.find? key with - | e
  · exact ⟨rfl, .cons ⟨rfl, .refl _⟩ .nil⟩
  · exact ⟨congrArg (Option.map _) (h e.value).value, .cons ⟨rfl, (h e.value).problems⟩ .nil⟩

/-- All entries that are left are known, so a strict policy has nothing to say about them that a
lenient one does not say. -/
theorem noWorse_fill {policy : Policy} {keys : List String}
    {inner : List (String × (Node → Node))} {form form' : Form α}
    (hkeys : ∀ key ∈ keys, key ∈ form.keys) (h : form.NoWorse form') :
    ((s.select (Node.known keys inner)).fill policy.strict what form).NoWorse
      (s.fill policy.lenient what form') where
  value := h.value
  problems := by
    show ((s.entries.filterMap (Entry.select _)).flatMap _).Sublist (s.entries.flatMap _)
    induction s.entries with
    | nil => exact .slnil
    | cons e es ih =>
      rcases he : e.select (Node.known keys inner) with - | e'
      · rw [List.filterMap_cons_none he]
        exact ih.trans (List.sublist_append_right ..)
      · rw [List.filterMap_cons_some he]
        refine List.Sublist.append ?_ ih
        obtain ⟨g, hg, rfl⟩ := Option.map_eq_some_iff.mp he
        obtain ⟨ps, qs, hps, hqs, hsub⟩ := h.lookup (hkeys _ (Node.mem_of_known hg))
        simpa only [entryProblems, hps, hqs] using hsub

/-- A required key that is kept is there if it was. -/
theorem require_select {g : Node → Node} (h : f key = some g) (value : Option α)
    (pos : Position) :
    (s.select f).require value key what pos = s.require value key what pos := by
  rw [require, require, has_select_of_some h]

end Section

end WorkflowTree
