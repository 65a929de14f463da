import WorkflowTree.Proofs.Meaning.Source
import WorkflowTree.Proofs.Reading.Form
import WorkflowTree.Reading.Trigger

/-!
# Sound values

A checked value is *sound* for a property (`Checked.Sound`) if it has the property as soon as
nothing was found wrong while it was made.  For a value that may be absent the property mostly is
`Given`: the value is there, and it is what a node means.  So soundness is never empty talk about
values that were not made.

There is one rule for each way in which readers are put together.  Sections pass on which entries
they hold (`Section.Holds`), so the rules for their keys speak of the mapping that was read.
-/

namespace WorkflowTree

variable {α β : Type}

/-- There is a value, and it has a property. -/
def Given (P : α → Prop) (o : Option α) : Prop := ∃ a, o = some a ∧ P a

namespace Checked

/-- If nothing was found wrong, the value has a property. -/
def Sound (P : α → Prop) (c : Checked α) : Prop := c.Clean → P c.value

variable {P : α → Prop} {Q : β → Prop}

/-! ### Rules -/

theorem Sound.pure {a : α} (h : P a) : (pure a : Checked α).Sound P := fun _ => h

theorem Sound.bind {c : Checked α} {f : α → Checked β} (h : c.Sound P)
    (hf : ∀ a, P a → (f a).Sound Q) : (c >>= f).Sound Q := by
  intro hclean
  obtain ⟨hc, hvalue⟩ := clean_bind.mp hclean
  exact hf c.value (h hc) hvalue

theorem Sound.map {c : Checked α} {f : α → β} (h : c.Sound P) (hf : ∀ a, P a → Q (f a)) :
    (f <$> c).Sound Q := by
  intro hclean
  exact hf c.value (h (clean_map.mp hclean))

theorem Sound.mono {P' : α → Prop} {c : Checked α} (h : c.Sound P) (hP : ∀ a, P a → P' a) :
    c.Sound P' := fun hclean => hP c.value (h hclean)

/-- What is known to be clean may be used to prove soundness. -/
theorem sound_of_clean {c : Checked α} (h : c.Clean → c.Sound P) : c.Sound P :=
  fun hclean => h hclean hclean

theorem sound_reportAll {ps : List Problem} : (reportAll ps).Sound fun _ => ps = [] :=
  clean_reportAll.mp

theorem sound_refuse {Q : Option α → Prop} (f : Fault) (pos : Position) :
    (refuse f pos : Checked (Option α)).Sound Q :=
  fun hclean => absurd hclean (not_clean_refuse f pos)

/-! ### Values that may be absent -/

theorem Sound.given {a : α} (h : P a) : (Pure.pure (some a) : Checked (Option α)).Sound (Given P) :=
  .pure ⟨a, rfl, h⟩

theorem Sound.some {c : Checked α} (h : c.Sound P) : (some <$> c).Sound (Given P) :=
  h.map fun a ha => ⟨a, rfl, ha⟩

theorem Sound.optionMap {c : Checked (Option α)} {f : α → β} (h : c.Sound (Given P))
    (hf : ∀ a, P a → Q (f a)) : (Option.map f <$> c).Sound (Given Q) := by
  refine h.map ?_
  rintro _ ⟨a, rfl, ha⟩
  exact ⟨f a, rfl, hf a ha⟩

theorem Sound.andThen {Q : Option β → Prop} {c : Checked (Option α)}
    {k : α → Checked (Option β)} (h : c.Sound (Given P)) (hk : ∀ a, P a → (k a).Sound Q) :
    (c.andThen k).Sound Q := by
  intro hclean
  obtain ⟨hc, hvalue⟩ := clean_andThen.mp hclean
  obtain ⟨a, ha, hP⟩ := h hc
  rw [andThen_of_some ha]
  exact hk a hP (hvalue a ha)

/-! ### Lists -/

/-- Of parts without problems none is left out, so the values stand beside the parts. -/
theorem sound_collect {R : β → α → Prop} {read : β → Checked (Option α)} {bs : List β}
    (h : ∀ b ∈ bs, (read b).Sound (Given (R b))) :
    (collect (bs.map read)).Sound fun as => List.Forall₂ R bs as := by
  intro hclean
  rw [clean_collect, List.forall_mem_map] at hclean
  rw [value_collect]
  -- by induction on the parts: each of them is clean, so each of them gives a value
  induction bs with
  | nil => exact .nil
  | cons b bs ih =>
    have hhead : b ∈ b :: bs := List.mem_cons_self ..
    have htail : ∀ b' ∈ bs, b' ∈ b :: bs := fun _ => List.mem_cons_of_mem b
    obtain ⟨a, ha, hR⟩ := h b hhead (hclean b hhead)
    rw [List.map_cons, List.filterMap_cons_some ha]
    apply List.Forall₂.cons hR
    exact ih (fun b' hb' => h b' (htail b' hb')) fun b' hb' => hclean b' (htail b' hb')

end Checked

open Checked

variable {P : α → Prop} {Q : β → Prop} {n : Node} {what key : String}

theorem sound_mismatch {Q : Option α → Prop} (n : Node) (what expected : String) :
    (mismatch n what expected : Checked (Option α)).Sound Q :=
  sound_refuse _ _

/-- A sequence whose items are read one by one means the list of what they mean. -/
theorem sound_list {R : Node → α → Prop} {read : Node → Checked (Option α)} {items : List Node}
    (hitems : n.items? = some items) (h : ∀ i, (read i).Sound (Given (R i))) :
    (some <$> collect (items.map read)).Sound (Given (MeansList R n)) := by
  refine Sound.some (Sound.mono (Checked.sound_collect fun i _ => h i) fun as has => ?_)
  exact ⟨items, hitems, has⟩

/-! ### Sections -/

namespace Section

/-- The section holds the entries of what was read, which is nothing if there was no node. -/
def Holds (body : Option Node) (s : Section) : Prop :=
  ∀ key, s.find? key = body.bind (·.entryAt? key)

theorem Holds.get? {body : Option Node} {s : Section} (h : s.Holds body) (key : String) :
    s.get? key = body.bind (·.get? key) := by
  rw [Section.get?, h key]
  rcases body with - | n
  · rfl
  · exact n.map_value_entryAt? key

/-- The entries of a section that was read stand beside those of the mapping. -/
theorem sound_read : (read what n).Sound (Given fun s =>
    ∃ kvs, n.entries? = some kvs ∧
      List.Forall₂ (fun kv e => Entry.ofPair? kv = some e) kvs s.entries) := by
  have hpair : ∀ kv : Node × Node,
      (Entry.read what kv).Sound (Given fun e => Entry.ofPair? kv = some e) := by
    intro kv hclean
    obtain ⟨e, he⟩ := (Entry.explained_read what kv).exists_value hclean
    rw [Entry.value_read] at he
    exact ⟨e, by rw [Entry.value_read, he], he⟩
  have hall : (Entry.readAll what n).Sound (Given fun es =>
      ∃ kvs, n.entries? = some kvs ∧
        List.Forall₂ (fun kv e => Entry.ofPair? kv = some e) kvs es) := by
    unfold Entry.readAll
    split
    · next kvs hkvs =>
      exact ((Checked.sound_collect fun kv _ => hpair kv).mono fun es hes => ⟨kvs, hkvs, hes⟩).some
    · exact sound_mismatch _ _ _
  -- no key was met twice, so the section holds all entries, as they come
  refine hall.andThen fun es hes => Sound.some fun hclean => ?_
  have hentries : (distinct what [] es).value.entries = es := entries_foldlM_extend hclean
  rw [hentries]
  exact hes

theorem holds_of_forall₂ {kvs : List (Node × Node)} {s : Section}
    (hkvs : n.entries? = some kvs)
    (h : List.Forall₂ (fun kv e => Entry.ofPair? kv = some e) kvs s.entries) :
    s.Holds (some n) := by
  intro key
  show s.entries.find? _ = n.entryAt? key
  rw [Node.entryAt?, hkvs, Option.bind_some]
  -- both look-ups pass over the same keys, so they stop at the same one
  generalize s.entries = es at h
  clear hkvs
  induction h with
  | nil => rfl
  | @cons kv e kvs es he _ ih =>
    have htext : kv.1.text? = some e.key.value := (Entry.ofPair?_eq_some he).1
    by_cases hkey : e.key.value = key
    · rw [List.find?_cons_of_pos (by simpa using hkey),
        List.find?_cons_of_pos (by simpa [htext] using hkey), Option.bind_some, he]
    · rw [List.find?_cons_of_neg (by simpa using hkey),
        List.find?_cons_of_neg (by simpa [htext] using hkey), ih]

theorem sound_within {Q : Option α → Prop} {k : Section → Checked (Option α)}
    (h : ∀ s, s.Holds (some n) → (k s).Sound Q) : (within what n k).Sound Q := by
  refine sound_read.andThen ?_
  rintro s ⟨kvs, hkvs, hentries⟩
  exact h s (holds_of_forall₂ hkvs hentries)

/-- Where nothing is wrong, permissions are not repeated, and reading the mapping of a workflow or a
job is reading a mapping. -/
theorem readWithPermissions_of_clean (h : (readWithPermissions what n).Clean) :
    readWithPermissions what n = read what n := by
  unfold readWithPermissions at h ⊢
  rcases e : (Entry.readAll what n).value with - | es
  · rw [read, andThen_of_none e, andThen_of_none e]
  · rcases hconflict : formConflict? what es with - | p
    · rw [read, andThen_of_some e, andThen_of_some e, hconflict]
    · -- permissions in two forms would be reported
      have hreport := (clean_andThen.mp h).2 es e
      rw [hconflict] at hreport
      cases (clean_bind.mp hreport).1

theorem sound_withinOwner {Q : Option α → Prop} {k : Section → Checked (Option α)}
    (h : ∀ s, s.Holds (some n) → (k s).Sound Q) : (withinOwner what n k).Sound Q := by
  refine sound_of_clean fun hclean => ?_
  have hread := readWithPermissions_of_clean (clean_andThen.mp hclean).1
  have hwithin : withinOwner what n k = within what n k := by
    rw [withinOwner, within, hread]
  rw [hwithin]
  exact sound_within h

/-- A body that is no value has no entries, as a body that is left out. -/
theorem sound_withinBody {Q : Option α → Prop} {body : Option Node}
    {k : Section → Checked (Option α)} (h : ∀ s, s.Holds body → (k s).Sound Q) :
    (withinBody what body k).Sound Q := by
  unfold withinBody
  split
  · next hbody =>
    apply h
    intro key
    rcases body with - | n
    · rfl
    · rcases n with pos | _ | _ | _
      · rfl
      all_goals cases hbody
  · next n hbody =>
    obtain rfl := Option.eq_some_of_filter_eq_some hbody
    exact sound_within h

/-! ### Free keys -/

theorem sound_collect {R : Entry → α → Prop} {s : Section} {read : Entry → Checked (Option α)}
    (h : ∀ e, (read e).Sound (Given (R e))) :
    (s.collect read).Sound fun m => ∀ key, Option.Rel R (s.find? key) (m.find? key) := by
  intro hclean key
  rw [find?_collect]
  rcases hfind : s.find? key with - | e
  · exact .none
  · have he := clean_collect.mp hclean e (List.mem_of_find?_eq_some hfind)
    obtain ⟨a, ha, hR⟩ := h e he
    rw [Option.bind_some, ha]
    exact .some hR

/-- What is read of free keys is what the section means, if each value is what its entry means. -/
theorem sound_free {R : Entry → α → Prop} {read : Entry → Checked (Option α)}
    (h : ∀ e, (read e).Sound (Given (R e))) :
    (within what n fun s => some <$> s.collect read).Sound (Given (MeansKeyed R n)) := by
  refine sound_of_clean fun hclean => ?_
  have hn : n.IsSection := clean_read.mp (clean_andThen.mp hclean).1
  refine sound_within fun s hs => Sound.some ?_
  refine (sound_collect h).mono fun m hm => ⟨hn, fun key => ?_⟩
  have hentry : s.find? key = n.entryAt? key := hs key
  rw [if_neg List.not_mem_nil, ← hentry]
  exact hm key

end Section

/-! ### Forms -/

/-- If nothing is wrong with the known keys that a section has, what was read of them has a
property. -/
def Form.Sound (s : Section) (P : α → Prop) (f : Form α) : Prop :=
  (∀ field ∈ f.fields, s.has field.1 = true → field.2 = []) → P f.value

theorem Form.Sound.pure {s : Section} {a : α} (h : P a) : (pure a : Form α).Sound s P := fun _ => h

theorem Form.Sound.bind {s : Section} {f : Form α} {k : α → Form β} (h : f.Sound s P)
    (hk : ∀ a, P a → (k a).Sound s Q) : (f >>= k).Sound s Q := by
  intro hfields
  obtain ⟨hf, hrest⟩ := List.forall_mem_append.mp hfields
  exact hk f.value (h hf) hrest

namespace Section

variable {s : Section} {body : Option Node}

/-- What is under a key that may be left out is absent exactly if the key is. -/
theorem sound_field {R : Node → α → Prop} {read : Node → Checked (Option α)} (hs : s.Holds body)
    (h : ∀ v, (read v).Sound (Given (R v))) :
    (s.field key read).Sound s (Option.Rel R (body.bind (·.get? key))) := by
  intro hfields
  rw [value_field, ← hs.get? key]
  rcases hget : s.get? key with - | v
  · exact .none
  · have hclean : (read v).Clean := by
      have hproblems := hfields (key, s.problemsAt key read) (by simp)
        (has_iff.mpr ⟨v, hget⟩)
      rwa [problemsAt, hget] at hproblems
    obtain ⟨a, ha, hR⟩ := h v hclean
    rw [Option.bind_some, ha]
    exact .some hR

theorem sound_fieldWithKey {R : Node → α → Prop} {read : Node → Checked (Option α)}
    (hs : s.Holds body) (h : ∀ v, (read v).Sound (Given (R v))) :
    (s.fieldWithKey key read).Sound s fun o =>
      Option.Rel R (body.bind (·.get? key)) (o.map Prod.snd) := by
  intro hfields
  have hvalue : (s.fieldWithKey key read).value.map Prod.snd = (s.field key read).value := by
    rw [value_fieldWithKey, value_field, get?]
    rcases s.find? key with - | e
    · rfl
    · simp [Option.map_map, Function.comp_def]
  rw [hvalue]
  exact sound_field hs h (by simpa using hfields)

theorem sound_fill {policy : Policy} {form : Form α} (nodup : form.keys.Nodup)
    (h : form.Sound s P) : (s.fill policy what form).Sound P := by
  intro hclean
  exact h ((clean_fill nodup).mp hclean).2

/-- A required key is there if it is not reported, and by then its value is known. -/
theorem sound_require {R : Node → α → Prop} {value : Option α} {pos : Position}
    (hs : s.Holds (some n)) (h : Option.Rel R (n.get? key) value) :
    (s.require value key what pos).Sound (Given fun a => n.Requires key (R · a)) := by
  intro hclean
  obtain ⟨hget, rfl⟩ | ⟨v, a, hget, rfl, hR⟩ := optionRel_cases h
  · -- a key that is not missed has an entry
    obtain ⟨v, hv⟩ := has_iff.mp (clean_require.mp hclean rfl)
    rw [hs.get? key, Option.bind_some, hget] at hv
    cases hv
  · exact ⟨a, rfl, v, hget, hR⟩

end Section

end WorkflowTree
