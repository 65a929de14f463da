import WorkflowTree.Proofs.Reading.Section

/-!
# What sections accept

A section is used in two ways: by a form with fixed keys, and entry by entry.  Either way the
keys are looked up in the section, and looking them up there is looking them up in the mapping.
So what a reader of sections accepts can be said about the mapping alone:

* `Section.clean_within` and `Section.clean_withinOwner` pass from the section to the mapping;
* `Section.clean_fill` says what a form accepts, and `Section.clean_require` when a required
  key is missed;
* `Section.clean_free` says what a reader of a free section accepts, and
  `Section.accounts_free` that it loses no entry without a problem.
-/

namespace WorkflowTree

open Checked

variable {α β : Type}

namespace Section

/-! ### Looking up keys -/

theorem get?_of_mem {s : Section} {e : Entry} (h : e ∈ s.entries) :
    s.get? e.key.value = some e.value := by
  rcases hf : s.find? e.key.value with - | e'
  · exact absurd (List.mem_map_of_mem h) (find?_eq_none.mp hf)
  · have hkey : e'.key.value = e.key.value := by simpa using List.find?_some hf
    have : e' = e := List.inj_on_of_nodup_map s.nodup (List.mem_of_find?_eq_some hf) h hkey
    rw [get?, hf, this, Option.map_some]

theorem find?_eq_some {s : Section} {key : String} {e : Entry} :
    s.find? key = some e ↔ e ∈ s.entries ∧ e.key.value = key := by
  constructor
  · intro h
    exact ⟨List.mem_of_find?_eq_some h, by simpa using List.find?_some h⟩
  · rintro ⟨he, rfl⟩
    obtain ⟨e', he', -⟩ := Option.map_eq_some_iff.mp (get?_of_mem he)
    have hkey : e'.key.value = e.key.value := by simpa using List.find?_some he'
    rw [he', List.inj_on_of_nodup_map s.nodup (List.mem_of_find?_eq_some he') he hkey]

/-- What holds of all entries holds of all that is found under a key. -/
theorem forall_mem_entries {s : Section} {p : String → Node → Prop} :
    (∀ e ∈ s.entries, p e.key.value e.value) ↔ ∀ key v, s.get? key = some v → p key v := by
  constructor
  · intro h key v hv
    obtain ⟨e, he, rfl⟩ := Option.map_eq_some_iff.mp hv
    have hkey : e.key.value = key := by simpa using List.find?_some he
    exact hkey ▸ h e (List.mem_of_find?_eq_some he)
  · intro h e he
    exact h _ _ (get?_of_mem he)

theorem has_iff {s : Section} {key : String} : s.has key = true ↔ ∃ v, s.get? key = some v := by
  rw [has, get?, Option.isSome_iff_exists]
  simp

/-! ### From sections to mappings -/

theorem clean_within {what : String} {n : Node} {k : Section → Checked (Option α)} {p : Prop}
    (hp : p → n.IsSection)
    (h : ∀ s, n.IsSection → (∀ key, s.get? key = n.get? key) → ((k s).Clean ↔ p)) :
    (within what n k).Clean ↔ p := by
  rw [within, clean_andThen, clean_read]
  constructor
  · rintro ⟨hn, hk⟩
    obtain ⟨s, hs⟩ := (explained_read what n).exists_value (clean_read.mpr hn)
    exact (h s hn (get?_of_read hs)).mp (hk s hs)
  · intro hprop
    exact ⟨hp hprop, fun s hs => (h s (hp hprop) (get?_of_read hs)).mpr hprop⟩

theorem explained_within {what : String} {n : Node} {k : Section → Checked (Option α)}
    (h : ∀ s, (k s).Explained) : (within what n k).Explained :=
  explained_andThen (explained_read what n) h

theorem clean_withinOwner {what : String} {n : Node} {k : Section → Checked (Option α)}
    {p : Prop} (hp : p → n.IsSection)
    (h : ∀ s, n.IsSection → (∀ key, s.get? key = n.get? key) → ((k s).Clean ↔ p)) :
    (withinOwner what n k).Clean ↔ p := by
  rw [withinOwner, clean_andThen, clean_readWithPermissions]
  constructor
  · rintro ⟨hn, hk⟩
    obtain ⟨s, hs⟩ :=
      (explained_readWithPermissions what n).exists_value (clean_readWithPermissions.mpr hn)
    exact (h s hn (get?_of_readWithPermissions hs)).mp (hk s hs)
  · intro hprop
    exact ⟨hp hprop, fun s hs => (h s (hp hprop) (get?_of_readWithPermissions hs)).mpr hprop⟩

theorem explained_withinOwner {what : String} {n : Node} {k : Section → Checked (Option α)}
    (h : ∀ s, (k s).Explained) : (withinOwner what n k).Explained :=
  explained_andThen (explained_readWithPermissions what n) h

/-! ### Fixed keys -/

/-- The problems of what stands under a key. -/
def problemsAt (s : Section) (key : String) (read : Node → Checked β) : List Problem :=
  (s.get? key).elim [] fun n => (read n).problems

@[simp] theorem fields_field (s : Section) (key : String) (read : Node → Checked (Option α)) :
    (s.field key read).fields = [(key, s.problemsAt key read)] := by
  unfold field problemsAt
  rcases s.get? key with - | n <;> rfl

@[simp] theorem value_field (s : Section) (key : String) (read : Node → Checked (Option α)) :
    (s.field key read).value = (s.get? key).bind fun n => (read n).value := by
  unfold field
  rcases s.get? key with - | n <;> rfl

@[simp] theorem fields_fieldWithKey (s : Section) (key : String)
    (read : Node → Checked (Option α)) :
    (s.fieldWithKey key read).fields = [(key, s.problemsAt key read)] := by
  unfold fieldWithKey problemsAt get?
  rcases s.find? key with - | e <;> rfl

@[simp] theorem value_fieldWithKey (s : Section) (key : String)
    (read : Node → Checked (Option α)) :
    (s.fieldWithKey key read).value =
      (s.find? key).bind fun e => (read e.value).value.map (e.key, ·) := by
  unfold fieldWithKey
  rcases s.find? key with - | e <;> rfl

/-- The problems under a key matter if the mapping has it, and then they are absent exactly if
what the mapping has is read without any. -/
theorem problemsAt_eq_nil {s : Section} {n : Node} (hs : ∀ key, s.get? key = n.get? key)
    {key : String} {read : Node → Checked β} :
    (s.has key = true → s.problemsAt key read = []) ↔ n.Allows key fun v => (read v).Clean := by
  rw [has_iff, problemsAt, Node.Allows, hs]
  rcases n.get? key with - | v
  · simp
  · simp [Clean]

theorem entryProblems_eq_nil {policy : Policy} {what : String} {form : Form α} {e : Entry}
    (nodup : form.keys.Nodup) :
    entryProblems policy what form e = [] ↔
      (e.key.value ∈ form.keys ∨ policy.allowUnknownKeys = true) ∧
      ∀ f ∈ form.fields, f.1 = e.key.value → f.2 = [] := by
  unfold entryProblems
  rcases h : form.fields.lookup e.key.value with - | ps
  · -- the form does not list the key
    have hnot : e.key.value ∉ form.keys := Keyed.lookup_eq_none.mp h
    have hfields : ∀ f ∈ form.fields, f.1 = e.key.value → f.2 = [] := fun f hf hkey =>
      absurd (hkey ▸ List.mem_map_of_mem hf) hnot
    rcases ha : policy.allowUnknownKeys with - | -
    · simp [hnot]
    · simpa using hfields
  · have hmem := (Keyed.lookup_eq_some nodup).mp h
    have hkey : e.key.value ∈ form.keys := List.mem_map_of_mem hmem
    constructor
    · rintro hps
      refine ⟨.inl hkey, ?_⟩
      rintro ⟨key, ps'⟩ hf rfl
      obtain rfl := Option.some.inj (h.symm.trans ((Keyed.lookup_eq_some nodup).mpr hf))
      exact hps
    · rintro ⟨-, hf⟩
      exact hf _ hmem rfl

/-- A form accepts a section exactly if each key is known or passed over, and nothing is wrong
under the known ones. -/
theorem clean_fill {s : Section} {policy : Policy} {what : String} {form : Form α}
    (nodup : form.keys.Nodup) :
    (s.fill policy what form).Clean ↔
      (∀ key v, s.get? key = some v → key ∈ form.keys ∨ policy.allowUnknownKeys = true) ∧
      ∀ f ∈ form.fields, s.has f.1 = true → f.2 = [] := by
  have hclean : (s.fill policy what form).Clean ↔
      ∀ e ∈ s.entries, entryProblems policy what form e = [] := List.flatMap_eq_nil_iff
  simp only [hclean, entryProblems_eq_nil nodup, has_iff]
  -- each entry has its say once, under its key; a form speaks of a key that is there
  rw [forall_mem_entries (p := fun key _ =>
    (key ∈ form.keys ∨ policy.allowUnknownKeys = true) ∧
      ∀ f ∈ form.fields, f.1 = key → f.2 = [])]
  constructor
  · intro h
    refine ⟨fun key v hv => (h key v hv).1, ?_⟩
    rintro f hf ⟨v, hv⟩
    exact (h f.1 v hv).2 f hf rfl
  · rintro ⟨hkeys, hfields⟩ key v hv
    refine ⟨hkeys key v hv, ?_⟩
    rintro f hf rfl
    exact hfields f hf ⟨v, hv⟩

theorem clean_require {s : Section} {value : Option α} {key what : String} {pos : Position} :
    (s.require value key what pos).Clean ↔ (value = none → s.has key = true) := by
  unfold require Clean
  rcases value with - | a <;> rcases s.has key with - | - <;> simp

@[simp] theorem value_require (s : Section) (value : Option α) (key what : String)
    (pos : Position) : (s.require value key what pos).value = value := rfl

/-- A required key is missed exactly if the mapping does not have it. -/
theorem clean_require_bind {s : Section} {n : Node} (hs : ∀ key, s.get? key = n.get? key)
    {key what : String} {pos : Position} {f : Node → Option α} :
    (s.require ((n.get? key).bind f) key what pos).Clean ↔ n.Has key := by
  rw [clean_require, has_iff, hs]
  unfold Node.Has
  rcases n.get? key with - | v <;> simp

/-- A required key that is not missed has a value, if nothing is wrong with the form: the reader
of the value reports a problem before it gives none. -/
theorem exists_value_of_require {s : Section} {policy : Policy} {what what' key : String}
    {pos : Position} {form : Form α} {read : Node → Checked (Option β)}
    (he : ∀ n, (read n).Explained) (nodup : form.keys.Nodup)
    (hfill : (s.fill policy what form).Clean)
    (hmem : (key, s.problemsAt key read) ∈ form.fields)
    (hrequire : (s.require ((s.get? key).bind fun n => (read n).value) key what' pos).Clean) :
    ∃ b, ((s.get? key).bind fun n => (read n).value) = some b := by
  rw [← Option.ne_none_iff_exists']
  intro hnone
  -- the look-up is silent, so the key is there and its reader gave no value
  have hhas := clean_require.mp hrequire hnone
  have hproblems := ((clean_fill nodup).mp hfill).2 _ hmem hhas
  obtain ⟨v, hv⟩ := has_iff.mp hhas
  rw [hv, Option.bind_some] at hnone
  refine he v hnone ?_
  simpa [problemsAt, hv] using hproblems

/-- If nothing is wrong with the form, a key that gives no value is not there. -/
theorem fieldWithKey_eq_none {s : Section} {policy : Policy} {what key : String} {form : Form α}
    {read : Node → Checked (Option β)} (he : ∀ n, (read n).Explained) (nodup : form.keys.Nodup)
    (hfill : (s.fill policy what form).Clean)
    (hmem : (key, s.problemsAt key read) ∈ form.fields) :
    (s.fieldWithKey key read).value = none ↔ s.has key = false := by
  have hproblems : s.has key = true → s.problemsAt key read = [] :=
    ((clean_fill nodup).mp hfill).2 _ hmem
  rw [value_fieldWithKey]
  rcases e : s.find? key with - | entry
  · simp [has, e]
  · have hvalue : (read entry.value).value ≠ none := fun hnone =>
      he entry.value hnone (by simpa [has, problemsAt, get?, e] using hproblems)
    simpa [has, e] using hvalue

/-! ### Free keys -/

@[simp] theorem clean_collect {s : Section} {read : Entry → Checked (Option α)} :
    (s.collect read).Clean ↔ ∀ e ∈ s.entries, (read e).Clean := by
  simp [collect, Clean]

/-- Looking up a key in what was collected is reading the entry with this key. -/
theorem find?_collect (s : Section) (read : Entry → Checked (Option α)) (key : String) :
    (s.collect read).value.find? key = (s.find? key).bind fun e => (read e).value := by
  ext a
  rw [Keyed.find?_eq_some, Option.bind_eq_some_iff]
  simp only [collect, keyed, List.filterMap_map, List.mem_filterMap, Function.comp_apply,
    Option.map_eq_some_iff, Prod.mk.injEq, find?_eq_some]
  constructor
  · rintro ⟨e, he, a', ha, rfl, rfl⟩
    exact ⟨e, ⟨he, rfl⟩, ha⟩
  · rintro ⟨e, ⟨he, rfl⟩, ha⟩
    exact ⟨e, he, a, ha, rfl, rfl⟩

/-- A reader of a free section accepts a mapping exactly if it is a section and each value is
accepted under its key. -/
theorem clean_free {what : String} {n : Node} {read : Entry → Checked (Option α)}
    {p : String → Node → Prop} (h : ∀ e, (read e).Clean ↔ p e.key.value e.value) :
    (within what n fun s => some <$> s.collect read).Clean ↔ n.IsFree p := by
  refine clean_within (fun hfree => hfree.1) fun s hn hs => ?_
  rw [clean_map, clean_collect]
  simp only [h]
  rw [forall_mem_entries]
  simp only [hs]
  exact (and_iff_right hn).symm

theorem length_keyed (cs : List (String × Checked (Option α))) :
    (keyed cs).length = (Checked.collect (cs.map Prod.snd)).value.length := by
  induction cs with
  | nil => rfl
  | cons c cs ih =>
    rcases h : c.2.value with - | a
    · simpa [keyed, h] using ih
    · simpa [keyed, h] using ih

/-- Each entry that could not be read comes with a problem. -/
theorem length_collect {s : Section} {read : Entry → Checked (Option α)}
    (h : ∀ e, (read e).Explained) :
    s.entries.length ≤ (s.collect read).value.size + (s.collect read).problems.length := by
  have hparts := length_le_collect h s.entries
  have hsize : (s.collect read).value.size =
      (Checked.collect (s.entries.map read)).value.length := by
    rw [Keyed.size, collect, length_keyed, List.map_map]
    rfl
  rw [hsize]
  simpa [collect, List.flatMap_map] using hparts

/-- What loses no entry of a section without a problem loses no entry of the mapping without
one. -/
theorem accounts_within {what : String} {n : Node} {k : Section → Checked (Option α)}
    {size : α → Nat} (h : ∀ s, (k s).Accounts s.entries.length size) :
    (within what n k).Accounts n.size size where
  explained := explained_within fun s => (h s).explained
  counted := by
    intro a ha
    rcases e : (Section.read what n).value with - | s
    · rw [within, andThen_of_none e] at ha
      cases ha
    · have hread := length_of_read e
      rw [within, andThen_of_some e] at ha ⊢
      have hk := (h s).counted a ha
      rw [List.length_append]
      omega

/-- A reader of a free section keeps each entry of the mapping or reports a problem for it. -/
theorem accounts_free {what : String} {n : Node} {read : Entry → Checked (Option α)}
    (h : ∀ e, (read e).Explained) :
    (within what n fun s => some <$> s.collect read).Accounts n.size Keyed.size :=
  accounts_within fun _ => accounts_map_some (length_collect h)

end Section

end WorkflowTree
