import WorkflowTree.Proofs.Grammar.Shape
import WorkflowTree.Proofs.Reading.Clean
import WorkflowTree.Reading.Section
import Mathlib.Data.List.Nodup

/-!
# Reading sections

What a section that was read has to do with the mapping it was read from.

* `Section.get?_of_read` says that looking up a key in the section finds what looking it up in
  the mapping finds, whatever is wrong with the mapping.
* `Section.clean_read` says that nothing is found wrong exactly if the mapping is a section.
* `Section.length_of_read` says that each entry that is left out comes with a problem.

The mappings of workflows and jobs are read in a way of their own, which treats repeated
permissions apart.  The same three facts hold of it, the last one in a weaker form: two forms
of permissions that exclude each other are one problem, however often they are repeated.
-/

namespace WorkflowTree

open Checked

variable {α β : Type}

@[simp] theorem not_clean_mismatch (n : Node) (what expected : String) :
    ¬ (mismatch n what expected : Checked (Option α)).Clean :=
  not_clean_refuse _ _

theorem explained_mismatch (n : Node) (what expected : String) :
    (mismatch n what expected : Checked (Option α)).Explained :=
  explained_refuse _ _

/-- The number of parts that a node is made of directly. -/
def Node.size : Node → Nat
  | .sequence items _ => items.length
  | .mapping entries _ => entries.length
  | _ => 0

/-! ### Entries -/

namespace Entry

/-- The entry that a pair of a mapping stands for, if its key is a text. -/
def ofPair? (kv : Node × Node) : Option Entry := kv.1.leaf?.map (⟨·, kv.2⟩)

theorem ofPair?_eq_some {kv : Node × Node} {e : Entry} (h : ofPair? kv = some e) :
    kv.1.text? = some e.key.value ∧ kv.2 = e.value := by
  obtain ⟨t, ht, rfl⟩ := Option.map_eq_some_iff.mp h
  exact ⟨Node.text?_of_leaf? ht, rfl⟩

theorem ofPair?_eq_none {kv : Node × Node} : ofPair? kv = none ↔ kv.1.text? = none := by
  rw [ofPair?, Node.text?_eq_leaf?, Option.map_eq_none_iff, Option.map_eq_none_iff]

theorem isText_iff_ofPair? {kv : Node × Node} : kv.1.IsText ↔ ofPair? kv ≠ none := by
  rw [Ne, ofPair?_eq_none, ← Ne, Option.ne_none_iff_exists']
  rfl

@[simp] theorem value_read (what : String) (kv : Node × Node) :
    (read what kv).value = ofPair? kv := by
  unfold read ofPair?
  rcases kv.1.leaf? with - | t <;> rfl

theorem clean_read {what : String} {kv : Node × Node} : (read what kv).Clean ↔ kv.1.IsText := by
  rw [isText_iff_ofPair?]
  unfold read ofPair?
  rcases kv.1.leaf? with - | t <;> simp

theorem explained_read (what : String) (kv : Node × Node) : (read what kv).Explained := by
  refine explained_of_clean fun hc => ?_
  rw [value_read]
  exact isText_iff_ofPair?.mp (clean_read.mp hc)

theorem value_readAll (what : String) (n : Node) :
    (readAll what n).value = n.entries?.map (List.filterMap ofPair?) := by
  unfold readAll
  rcases n.entries? with - | kvs
  · rfl
  · simp [List.filterMap_map]

theorem explained_readAll (what : String) (n : Node) : (readAll what n).Explained := by
  unfold readAll
  split
  · exact explained_map_some _
  · exact explained_mismatch _ _ _

theorem clean_readAll {what : String} {n : Node} :
    (readAll what n).Clean ↔ ∃ kvs, n.entries? = some kvs ∧ ∀ kv ∈ kvs, kv.1.IsText := by
  rcases e : n.entries? with - | kvs
  · simp [readAll, e]
  · simp only [readAll, e, clean_map, clean_collect, List.forall_mem_map, clean_read,
      Option.some.injEq, exists_eq_left']

/-- Entries and the pairs they stand for agree in what they have under each key. -/
theorem find?_filterMap_ofPair? (kvs : List (Node × Node)) (key : String) :
    ((kvs.filterMap ofPair?).find? fun e => e.key.value == key).map Entry.value =
      (kvs.find? fun kv => kv.1.text? == some key).map Prod.snd := by
  induction kvs with
  | nil => rfl
  | cons kv kvs ih =>
    rcases h : ofPair? kv with - | e
    · -- a pair whose key is no text is found by neither look-up
      rw [List.filterMap_cons_none h, List.find?_cons_of_neg (by simp [ofPair?_eq_none.mp h]), ih]
    · obtain ⟨ht, hv⟩ := ofPair?_eq_some h
      rw [List.filterMap_cons_some h]
      by_cases hkey : e.key.value = key
      · rw [List.find?_cons_of_pos (by simpa using hkey),
          List.find?_cons_of_pos (by simpa [ht] using hkey)]
        exact congrArg some hv.symm
      · rw [List.find?_cons_of_neg (by simpa using hkey),
          List.find?_cons_of_neg (by simpa [ht] using hkey), ih]

theorem find?_of_readAll {what : String} {n : Node} {es : List Entry}
    (h : (readAll what n).value = some es) (key : String) :
    (es.find? fun e => e.key.value == key).map Entry.value = n.get? key := by
  rw [value_readAll] at h
  obtain ⟨kvs, hn, rfl⟩ := Option.map_eq_some_iff.mp h
  rw [find?_filterMap_ofPair?, Node.get?, hn, Option.bind_some]

/-- Pairs whose keys are all texts have the keys of the entries that they stand for. -/
theorem keys_filterMap_ofPair? {kvs : List (Node × Node)} (h : ∀ kv ∈ kvs, kv.1.IsText) :
    kvs.map (fun kv => kv.1.text?) =
      ((kvs.filterMap ofPair?).map fun e => e.key.value).map some := by
  induction kvs with
  | nil => rfl
  | cons kv kvs ih =>
    have hkv := isText_iff_ofPair?.mp (h kv (List.mem_cons_self ..))
    obtain ⟨e, he⟩ := Option.ne_none_iff_exists'.mp hkv
    rw [List.filterMap_cons_some he, List.map_cons, List.map_cons, List.map_cons,
      (ofPair?_eq_some he).1, ih fun kv' hkv' => h kv' (List.mem_cons_of_mem kv hkv')]

/-- Each entry whose key is no text comes with a problem. -/
theorem length_of_readAll {what : String} {n : Node} {es : List Entry}
    (h : (readAll what n).value = some es) :
    n.size ≤ es.length + (readAll what n).problems.length := by
  rcases n with _ | _ | _ | ⟨kvs, pos⟩
  · exact Nat.zero_le _
  · exact Nat.zero_le _
  · simp [value_readAll, Node.entries?] at h
  · have hcollect := length_le_collect (explained_read what) kvs
    simp only [readAll, Node.entries?, value_map, Option.some.injEq] at h
    subst h
    simpa [readAll, Node.entries?, Node.size] using hcollect

end Entry

/-! ### Distinct keys -/

namespace Section

theorem extend_of_none {what : String} {quiet : List String} {s : Section} {e : Entry}
    (h : s.find? e.key.value = none) : extend what quiet s e = pure (s.add e h) := by
  unfold extend
  split
  · rfl
  · next hs => rw [h] at hs; cases hs

theorem extend_of_some {what : String} {quiet : List String} {s : Section} {e first : Entry}
    (h : s.find? e.key.value = some first) :
    extend what quiet s e = ⟨s, if quiet.contains e.key.value then []
      else [⟨.duplicate what e.key.value first.key.pos, e.key.pos⟩]⟩ := by
  unfold extend
  split
  · next hs => rw [h] at hs; cases hs
  · next hs =>
    obtain rfl := Option.some.inj (h.symm.trans hs)
    rcases hq : quiet.contains e.key.value with - | -
    · rfl
    · rfl

theorem find?_add {s : Section} {e : Entry} (h : s.find? e.key.value = none) (key : String) :
    (s.add e h).find? key = (s.find? key).or (if e.key.value == key then some e else none) := by
  simp [find?, add, List.find?_append, List.find?_singleton]

theorem has_extend (what : String) (quiet : List String) (s : Section) (e : Entry)
    (key : String) :
    (extend what quiet s e).value.has key = (s.has key || e.key.value == key) := by
  unfold has
  rcases h : s.find? e.key.value with - | first
  · rw [extend_of_none h, value_pure, find?_add, Option.isSome_or]
    cases e.key.value == key <;> rfl
  · rw [extend_of_some h]
    rcases hkey : e.key.value == key with - | -
    · rw [Bool.or_false]
    · rw [← beq_iff_eq.mp hkey, h, Option.isSome_some, Bool.true_or]

/-- Of the entries of each key the first one is kept. -/
theorem find?_foldlM_extend (what : String) (quiet : List String) (es : List Entry)
    (s : Section) (key : String) :
    (es.foldlM (extend what quiet) s).value.find? key =
      (s.find? key).or (es.find? fun e => e.key.value == key) := by
  induction es generalizing s with
  | nil => simp
  | cons e es ih =>
    rw [List.foldlM_cons, value_bind]
    rcases h : s.find? e.key.value with - | first
    · rw [extend_of_none h, value_pure, ih, find?_add, Option.or_assoc]
      by_cases hk : e.key.value = key <;> simp [hk]
    · rw [extend_of_some h, ih]
      by_cases hk : e.key.value = key
      · rw [← hk, h, Option.some_or, Option.some_or]
      · rw [List.find?_cons_of_neg (by simpa using hk)]

/-- In the entries that are kept a key finds what it finds in all. -/
theorem find?_distinct (what : String) (quiet : List String) (es : List Entry) (key : String) :
    (distinct what quiet es).value.find? key = es.find? fun e => e.key.value == key := by
  rw [distinct, find?_foldlM_extend]
  simp [empty, find?]

theorem get?_distinct (what : String) (quiet : List String) (es : List Entry) (key : String) :
    (distinct what quiet es).value.get? key =
      (es.find? fun e => e.key.value == key).map Entry.value := by
  rw [get?, find?_distinct]

/-- Nothing is wrong exactly if no key is repeated. -/
theorem clean_foldlM_extend {what : String} {es : List Entry} {s : Section} :
    (es.foldlM (extend what []) s).Clean ↔
      ((s.entries ++ es).map fun e => e.key.value).Nodup := by
  induction es generalizing s with
  | nil => simp [s.nodup]
  | cons e es ih =>
    rw [List.foldlM_cons, clean_bind]
    rcases h : s.find? e.key.value with - | first
    · rw [extend_of_none h, value_pure, ih]
      simp [add]
    · have hmem : e.key.value ∈ s.entries.map fun e => e.key.value :=
        Classical.byContradiction fun hn => by
          rw [find?_eq_none.mpr hn] at h
          cases h
      rw [extend_of_some h]
      constructor
      · rintro ⟨hc, -⟩
        simp [Clean] at hc
      · intro hnodup
        rw [List.map_append, List.map_cons, List.nodup_append] at hnodup
        exact absurd rfl (hnodup.2.2 _ hmem _ (List.mem_cons_self ..))

theorem clean_distinct {what : String} {es : List Entry} :
    (distinct what [] es).Clean ↔ (es.map fun e => e.key.value).Nodup := by
  rw [distinct, clean_foldlM_extend]
  simp [empty]

/-- If nothing is found wrong, the entries of the section are those of the mapping, in order. -/
theorem entries_foldlM_extend {what : String} {es : List Entry} {s : Section}
    (h : (es.foldlM (extend what []) s).Clean) :
    (es.foldlM (extend what []) s).value.entries = s.entries ++ es := by
  induction es generalizing s with
  | nil => exact (List.append_nil s.entries).symm
  | cons e es ih =>
    rw [List.foldlM_cons] at h ⊢
    obtain ⟨hextend, hrest⟩ := clean_bind.mp h
    rcases hfind : s.find? e.key.value with - | first
    · rw [extend_of_none hfind, value_pure] at hrest
      rw [value_bind, extend_of_none hfind, value_pure, ih hrest, add, List.append_assoc,
        List.singleton_append]
    · -- a key that was met before is a problem
      rw [extend_of_some hfind] at hextend
      cases hextend

/-- Each repeated entry comes with one problem. -/
theorem length_foldlM_extend (what : String) (es : List Entry) (s : Section) :
    s.entries.length + es.length = (es.foldlM (extend what []) s).value.entries.length +
      (es.foldlM (extend what []) s).problems.length := by
  induction es generalizing s with
  | nil => simp
  | cons e es ih =>
    rw [List.foldlM_cons, value_bind, problems_bind, List.length_append, List.length_cons]
    rcases h : s.find? e.key.value with - | first
    · have := ih (s.add e h)
      rw [extend_of_none h, value_pure, problems_pure]
      simp only [add, List.length_append, List.length_cons, List.length_nil] at this ⊢
      omega
    · have := ih s
      rw [extend_of_some h]
      simp only [List.contains_nil, Bool.false_eq_true, if_false, List.length_cons,
        List.length_nil]
      omega

theorem length_distinct (what : String) (es : List Entry) :
    es.length = (distinct what [] es).value.entries.length +
      (distinct what [] es).problems.length := by
  simpa [empty, distinct] using length_foldlM_extend what es empty

/-! ### Sections -/

theorem explained_read (what : String) (n : Node) : (read what n).Explained :=
  explained_andThen (Entry.explained_readAll what n) fun _ => explained_map_some _

/-- Looking up a key in a section that was read finds what looking it up in the mapping
finds. -/
theorem get?_of_read {what : String} {n : Node} {s : Section}
    (h : (read what n).value = some s) (key : String) : s.get? key = n.get? key := by
  rcases e : (Entry.readAll what n).value with - | es
  · simp [read, andThen_of_none e] at h
  · obtain rfl : (distinct what [] es).value = s := by
      simpa [read, andThen_of_some e] using h
    rw [get?_distinct, Entry.find?_of_readAll e]

theorem clean_read {what : String} {n : Node} : (read what n).Clean ↔ n.IsSection := by
  have hdistinct : ∀ {kvs}, n.entries? = some kvs → (∀ kv ∈ kvs, kv.1.IsText) →
      ((∀ es, (Entry.readAll what n).value = some es →
        (some <$> distinct what [] es).Clean) ↔ (kvs.map fun kv => kv.1.text?).Nodup) := by
    intro kvs hn htext
    rw [Entry.value_readAll, hn, Entry.keys_filterMap_ofPair? htext,
      List.nodup_map_iff fun _ _ => Option.some.inj]
    simp [clean_distinct]
  rw [read, clean_andThen, Entry.clean_readAll]
  constructor
  · rintro ⟨⟨kvs, hn, htext⟩, hk⟩
    exact ⟨kvs, hn, htext, (hdistinct hn htext).mp hk⟩
  · rintro ⟨kvs, hn, htext, hnodup⟩
    exact ⟨⟨kvs, hn, htext⟩, (hdistinct hn htext).mpr hnodup⟩

/-- Each entry of the mapping that the section does not hold comes with a problem. -/
theorem length_of_read {what : String} {n : Node} {s : Section}
    (h : (read what n).value = some s) :
    n.size ≤ s.entries.length + (read what n).problems.length := by
  rcases e : (Entry.readAll what n).value with - | es
  · simp [read, andThen_of_none e] at h
  · have hentries := Entry.length_of_readAll e
    have hdistinct := length_distinct what es
    simp only [read, andThen_of_some e, value_map, problems_map, Option.some.injEq] at h ⊢
    subst h
    rw [List.length_append]
    omega

/-! ### Repeated permissions -/

/-- Entries with distinct keys have one form of permissions at most. -/
theorem formConflict?_of_nodup {what : String} {es : List Entry}
    (h : (es.map fun e => e.key.value).Nodup) : formConflict? what es = none := by
  rw [Option.eq_none_iff_forall_ne_some]
  intro p hp
  simp only [formConflict?, Option.bind_eq_bind, Option.bind_eq_some_iff] at hp
  obtain ⟨blanket, hb, perScope, hs, -⟩ := hp
  obtain ⟨hbmem, hbkey⟩ := List.mem_filter.mp (List.mem_of_find?_eq_some hb)
  obtain ⟨hsmem, hskey⟩ := List.mem_filter.mp (List.mem_of_find?_eq_some hs)
  have hkeys : blanket.key.value = perScope.key.value :=
    (beq_iff_eq.mp hbkey).trans (beq_iff_eq.mp hskey).symm
  obtain rfl := List.inj_on_of_nodup_map h hbmem hsmem hkeys
  -- one entry has one value, which is not both a text and a mapping
  have htext := List.find?_some hb
  have hentries := List.find?_some hs
  rcases blanket with ⟨key, _ | _ | _ | _⟩ <;> simp [Node.text?, Node.entries?] at htext hentries

theorem explained_readWithPermissions (what : String) (n : Node) :
    (readWithPermissions what n).Explained := by
  refine explained_andThen (Entry.explained_readAll what n) fun es => ?_
  split
  · exact explained_map_some _
  · exact explained_some _ _

theorem get?_of_readWithPermissions {what : String} {n : Node} {s : Section}
    (h : (readWithPermissions what n).value = some s) (key : String) :
    s.get? key = n.get? key := by
  rcases e : (Entry.readAll what n).value with - | es
  · simp [readWithPermissions, andThen_of_none e] at h
  · obtain ⟨quiet, rfl⟩ : ∃ quiet, (distinct what quiet es).value = s := by
      simp only [readWithPermissions, andThen_of_some e] at h
      split at h
      · exact ⟨[], Option.some.inj h⟩
      · exact ⟨[permissionsKey], Option.some.inj h⟩
    rw [get?_distinct, Entry.find?_of_readAll e]

theorem clean_readWithPermissions {what : String} {n : Node} :
    (readWithPermissions what n).Clean ↔ n.IsSection := by
  rw [← @clean_read what, readWithPermissions, read, clean_andThen, clean_andThen]
  refine and_congr_right fun _ => forall₂_congr fun es _ => ?_
  rcases h : formConflict? what es with - | p
  · exact Iff.rfl
  · -- a conflict needs a repeated key, so neither way of reading is clean
    have hdup : ¬ (es.map fun e => e.key.value).Nodup := fun hn => by
      rw [formConflict?_of_nodup hn] at h
      cases h
    simp [clean_distinct, hdup]

/-- If the section lacks an entry of the mapping, there is a problem. -/
theorem problems_of_readWithPermissions {what : String} {n : Node} {s : Section}
    (h : (readWithPermissions what n).value = some s) (hlt : s.entries.length < n.size) :
    (readWithPermissions what n).problems ≠ [] := by
  intro hclean
  have hread : (readWithPermissions what n) = read what n := by
    rcases e : (Entry.readAll what n).value with - | es
    · rw [readWithPermissions, read, andThen_of_none e, andThen_of_none e]
    · rcases hf : formConflict? what es with - | p
      · rw [readWithPermissions, read, andThen_of_some e, andThen_of_some e, hf]
      · simp [readWithPermissions, andThen_of_some e, hf] at hclean
  rw [hread] at h hclean
  have := length_of_read h
  rw [hclean, List.length_nil] at this
  omega

end Section

end WorkflowTree
