import WorkflowTree.Proofs.Provenance.Leaf
import WorkflowTree.Proofs.Reading.Form

/-!
# Grounded values

A checked value is *grounded* in a node (`Checked.Grounded`) if its value has a property, which is
mostly that all its leaves come from the node, and if each of its problems is evidenced by the node
(`Problem.IsEvidenced`): the node contains what the problem says, at the place of the problem.

Values and problems go together here because both are made of what was found in the same entries.
As readers are put together, they pass on that entries and sections are made of parts of the node
(`Entry.IsOf`, `Section.IsOf`).
-/

namespace WorkflowTree

variable {α β : Type}

/-! ### Evidence -/

/-- Of the entries with a key, which is a text, the first one has its key at one place, and another
one has it at another place. -/
def Repeats (entries : List (Node × Node)) (key : String) (first again : Position) : Prop :=
  ∃ before k₁ v₁ between k₂ v₂ behind,
    entries = before ++ (k₁, v₁) :: between ++ (k₂, v₂) :: behind ∧
    k₁.leaf? = some ⟨key, first⟩ ∧ k₂.leaf? = some ⟨key, again⟩ ∧
    ∀ e ∈ before, e.1.text? ≠ some key

/-- The node contains what the fault says, which shows at this place. -/
def Fault.IsEvidenced (root : Node) (pos : Position) : Fault → Prop
  | shape _ _ found =>
    (∃ n, root.Contains n ∧ n.pos = pos ∧ found = n.describe) ∨
    ∃ text plain, root.Contains (.scalar text plain pos) ∧ found = s!"unknown event \"{text}\""
  | exclusive .. | missing .. => True
  | duplicate _ key first =>
    ∃ entries start, root.Contains (.mapping entries start) ∧ Repeats entries key first pos
  | unexpected _ key _ =>
    ∃ entries start, root.Contains (.mapping entries start) ∧
      ∃ e ∈ entries, e.1.leaf? = some ⟨key, pos⟩
  | undecodable _ => False

/-- The problem stands where a node stands, and the node contains what it says. -/
def Problem.IsEvidenced (root : Node) (p : Problem) : Prop :=
  (∃ n, root.Contains n ∧ n.pos = p.pos) ∧ p.fault.IsEvidenced root p.pos

/-! ### Grounded values -/

/-- The value has a property, and all problems are evidenced by a node. -/
structure Checked.Grounded (root : Node) (P : α → Prop) (c : Checked α) : Prop where
  value : P c.value
  problems : ∀ p ∈ c.problems, p.IsEvidenced root

namespace Checked

variable {root : Node} {P : α → Prop} {Q : β → Prop}

theorem Grounded.mono {P' : α → Prop} {c : Checked α} (h : c.Grounded root P)
    (hP : ∀ a, P a → P' a) : c.Grounded root P' := ⟨hP _ h.value, h.problems⟩

theorem Grounded.pure {a : α} (h : P a) : (pure a : Checked α).Grounded root P :=
  ⟨h, fun _ hp => nomatch hp⟩

theorem Grounded.bind {c : Checked α} {f : α → Checked β} (h : c.Grounded root P)
    (hf : ∀ a, P a → (f a).Grounded root Q) : (c >>= f).Grounded root Q where
  value := (hf _ h.value).value
  problems := List.forall_mem_append.mpr ⟨h.problems, (hf _ h.value).problems⟩

theorem Grounded.map {c : Checked α} {f : α → β} (h : c.Grounded root P)
    (hf : ∀ a, P a → Q (f a)) : (f <$> c).Grounded root Q where
  value := hf _ h.value
  problems := by
    rw [problems_map]
    exact h.problems

theorem grounded_reportAll {ps : List Problem} (h : ∀ p ∈ ps, p.IsEvidenced root) :
    (reportAll ps).Grounded root fun _ => True := ⟨trivial, h⟩

/-- A property of a value that may be absent, and has to hold if it is there. -/
def IfPresent (P : α → Prop) (o : Option α) : Prop := ∀ a, o = some a → P a

theorem IfPresent.none : IfPresent P none := fun _ h => nomatch h

theorem IfPresent.some {a : α} (h : P a) : IfPresent P (some a) := by
  rintro _ ⟨⟩
  exact h

theorem Grounded.ifPresent {c : Checked α} (h : c.Grounded root P) :
    (some <$> c).Grounded root (IfPresent P) := h.map fun _ => IfPresent.some

theorem Grounded.andThen {Q : Option β → Prop} {c : Checked (Option α)}
    {k : α → Checked (Option β)} (h : c.Grounded root (IfPresent P)) (hnone : Q none)
    (hk : ∀ a, P a → (k a).Grounded root Q) : (c.andThen k).Grounded root Q := by
  rcases e : c.value with - | a
  · rw [andThen_of_none e]
    exact ⟨hnone, h.problems⟩
  · have ha := hk a (h.value a e)
    rw [andThen_of_some e]
    exact ⟨ha.value, List.forall_mem_append.mpr ⟨h.problems, ha.problems⟩⟩

theorem problems_collect_isEvidenced {Q : Option β → Prop} {as : List α}
    {f : α → Checked (Option β)} (h : ∀ a ∈ as, (f a).Grounded root Q) :
    ∀ p ∈ (collect (as.map f)).problems, p.IsEvidenced root := by
  intro p hp
  simp only [problems_collect, List.flatMap_map, List.mem_flatMap] at hp
  obtain ⟨a, ha, hp⟩ := hp
  exact (h a ha).problems p hp

section Leaves

variable [HasLeaves α]

theorem Grounded.some {c : Checked α} (h : c.Grounded root (IsFrom root)) :
    (some <$> c).Grounded root (IsFrom root) := h.map fun _ ha => isFrom_some.mpr ha

theorem Grounded.optionMap [HasLeaves β] {c : Checked (Option α)} {f : α → β}
    (h : c.Grounded root (IsFrom root)) (hf : ∀ a, IsFrom root a → IsFrom root (f a)) :
    (Option.map f <$> c).Grounded root (IsFrom root) := h.map fun _ ho => ho.map hf

theorem grounded_collect {bs : List β} {f : β → Checked (Option α)}
    (h : ∀ b ∈ bs, (f b).Grounded root (IsFrom root)) :
    (collect (bs.map f)).Grounded root (IsFrom root) where
  value := by
    refine isFrom_list.mpr fun a ha => ?_
    simp only [value_collect, List.filterMap_map, List.mem_filterMap, Function.comp_apply] at ha
    obtain ⟨b, hb, ha⟩ := ha
    exact isFrom_option.mp (h b hb).value a ha
  problems := problems_collect_isEvidenced h

end Leaves

end Checked

open Checked

variable {root : Node} {P : α → Prop} {Q : β → Prop}

theorem grounded_mismatch {Q : Option β → Prop} {n : Node} (h : root.Contains n) (hnone : Q none)
    (what expected : String) : (mismatch n what expected).Grounded root Q where
  value := hnone
  problems := List.forall_mem_singleton.mpr ⟨⟨n, h, rfl⟩, .inl ⟨n, h, rfl, rfl⟩⟩

/-! ### Entries -/

namespace Entry

/-- The entry is an entry of a mapping that the node contains. -/
def IsOf (root : Node) (e : Entry) : Prop :=
  ∃ kvs pos, root.Contains (.mapping kvs pos) ∧ ∃ kv ∈ kvs, ofPair? kv = some e

theorem IsOf.value {e : Entry} (h : e.IsOf root) : root.Contains e.value := by
  obtain ⟨kvs, pos, hmapping, kv, hkv, he⟩ := h
  rw [← (ofPair?_eq_some he).2]
  exact hmapping.value hkv

theorem IsOf.leaf {e : Entry} (h : e.IsOf root) :
    ∃ kvs pos, root.Contains (.mapping kvs pos) ∧ ∃ kv ∈ kvs, kv.1.leaf? = some e.key := by
  obtain ⟨kvs, pos, hmapping, kv, hkv, he⟩ := h
  obtain ⟨t, ht, rfl⟩ := Option.map_eq_some_iff.mp he
  exact ⟨kvs, pos, hmapping, kv, hkv, ht⟩

theorem IsOf.key {e : Entry} (h : e.IsOf root) : IsFrom root e.key := by
  obtain ⟨kvs, pos, hmapping, kv, hkv, ht⟩ := h.leaf
  exact isFrom_option.mp (hmapping.key hkv).isFrom_leaf? e.key ht

/-- The entries that were read are those of a mapping whose keys are texts. -/
theorem grounded_readAll {n : Node} (h : root.Contains n) (what : String) :
    (readAll what n).Grounded root (IfPresent fun es =>
      ∃ kvs pos, root.Contains (.mapping kvs pos) ∧ es = kvs.filterMap ofPair?) := by
  rcases n with _ | _ | _ | ⟨kvs, pos⟩
  · exact grounded_mismatch h .none _ _
  · exact grounded_mismatch h .none _ _
  · exact grounded_mismatch h .none _ _
  · have hread : ∀ kv ∈ kvs, (read what kv).Grounded root fun _ => True := by
      intro kv hkv
      unfold read
      split
      · exact .pure trivial
      · exact grounded_mismatch (h.key hkv) trivial _ _
    refine Grounded.ifPresent ⟨⟨kvs, pos, h, ?_⟩, problems_collect_isEvidenced hread⟩
    simp [List.filterMap_map]

/-- A key that is repeated among the entries is repeated in the mapping.  The pairs between them
whose keys are no texts do not matter. -/
theorem repeats_of_ofPair? {kvs : List (Node × Node)} {before between behind : List Entry}
    {e₁ e₂ : Entry}
    (h : kvs.filterMap ofPair? = before ++ e₁ :: between ++ e₂ :: behind)
    (hkey : e₁.key.value = e₂.key.value) (hbefore : ∀ e ∈ before, e.key.value ≠ e₂.key.value) :
    Repeats kvs e₂.key.value e₁.key.pos e₂.key.pos := by
  have hleaf : ∀ {kv e}, ofPair? kv = some e → kv.1.leaf? = some e.key := by
    intro kv e he
    obtain ⟨t, ht, rfl⟩ := Option.map_eq_some_iff.mp he
    exact ht
  obtain ⟨kvs', rest, rfl, h', hrest⟩ := List.filterMap_eq_append_iff.mp h
  obtain ⟨gap₂, ⟨k₂, v₂⟩, rest, rfl, -, h₂, -⟩ := List.filterMap_eq_cons_iff.mp hrest
  obtain ⟨start, kvs', rfl, hstart, hbetween⟩ := List.filterMap_eq_append_iff.mp h'
  obtain ⟨gap₁, ⟨k₁, v₁⟩, kvs', rfl, hgap₁, h₁, -⟩ := List.filterMap_eq_cons_iff.mp hbetween
  refine ⟨start ++ gap₁, k₁, v₁, kvs' ++ gap₂, k₂, v₂, rest, by simp, ?_, hleaf h₂, ?_⟩
  · rw [hleaf h₁, ← hkey]
  · intro kv hkv htext
    rcases List.mem_append.mp hkv with hkv | hkv
    · -- a pair with a text for its key is an entry before the first one
      have hpair : ofPair? kv ≠ none := by
        rw [Ne, ofPair?_eq_none, htext]
        exact Option.some_ne_none _
      obtain ⟨e, he⟩ := Option.ne_none_iff_exists'.mp hpair
      refine hbefore e (hstart ▸ List.mem_filterMap.mpr ⟨kv, hkv, he⟩) ?_
      rw [(ofPair?_eq_some he).1] at htext
      exact Option.some.inj htext
    · rw [ofPair?_eq_none.mp (hgap₁ kv hkv)] at htext
      cases htext

end Entry

/-! ### Sections -/

namespace Section

/-- The entries of the section are entries of mappings that the node contains. -/
def IsOf (root : Node) (s : Section) : Prop := ∀ e ∈ s.entries, e.IsOf root

theorem IsOf.empty : Section.empty.IsOf root := fun _ he => nomatch he

theorem IsOf.find? {s : Section} (h : s.IsOf root) {key : String} {e : Entry}
    (he : s.find? key = some e) : e.IsOf root := h e (List.mem_of_find?_eq_some he)

/-- A section that holds the first entries of a list goes on holding them, and what is reported on
the way is repeated in the mapping that the list comes from. -/
theorem grounded_foldlM_extend {kvs : List (Node × Node)} {pos : Position}
    (hmapping : root.Contains (.mapping kvs pos)) (what : String) (quiet : List String)
    {seen es : List Entry} (hall : kvs.filterMap Entry.ofPair? = seen ++ es) {s : Section}
    (hs : s.IsOf root)
    (hseen : ∀ key, s.find? key = seen.find? fun e => e.key.value == key) :
    (es.foldlM (extend what quiet) s).Grounded root (IsOf root) := by
  induction es generalizing seen s with
  | nil => exact .pure hs
  | cons e es ih =>
    have hall' : kvs.filterMap Entry.ofPair? = (seen ++ [e]) ++ es := by simpa using hall
    have hmem : e ∈ kvs.filterMap Entry.ofPair? := by simp [hall]
    obtain ⟨kv, hkv, he⟩ := List.mem_filterMap.mp hmem
    have heof : e.IsOf root := ⟨kvs, pos, hmapping, kv, hkv, he⟩
    rw [List.foldlM_cons]
    rcases hfind : s.find? e.key.value with - | first
    · rw [extend_of_none hfind, pure_bind]
      refine ih hall' ?_ ?_
      · exact List.forall_mem_append.mpr ⟨hs, List.forall_mem_singleton.mpr heof⟩
      · intro key
        rw [find?_add, hseen, List.find?_append, List.find?_singleton]
    · have hskip : ∀ key, s.find? key = (seen ++ [e]).find? fun e => e.key.value == key := by
        intro key
        rw [List.find?_append, ← hseen, List.find?_singleton]
        by_cases hkey : e.key.value = key
        · rw [← hkey, hfind]
          rfl
        · simp [hkey]
      have hrest := ih hall' hs hskip
      rw [hseen] at hfind
      obtain ⟨hkey, before, between, hsplit, hbefore⟩ := List.find?_eq_some_iff_append.mp hfind
      have hrepeats : Repeats kvs e.key.value first.key.pos e.key.pos := by
        refine Entry.repeats_of_ofPair? (by rw [hall, hsplit]) (by simpa using hkey) ?_
        exact fun e' he' => by simpa using hbefore e' he'
      rw [extend_of_some (by rw [hseen]; exact hfind)]
      refine ⟨hrest.value, List.forall_mem_append.mpr ⟨?_, hrest.problems⟩⟩
      split
      · exact fun _ hp => nomatch hp
      · exact List.forall_mem_singleton.mpr
          ⟨isFrom_pos.mp heof.key.pos, kvs, pos, hmapping, hrepeats⟩

theorem grounded_distinct {kvs : List (Node × Node)} {pos : Position}
    (hmapping : root.Contains (.mapping kvs pos)) (what : String) (quiet : List String) :
    (distinct what quiet (kvs.filterMap Entry.ofPair?)).Grounded root (IsOf root) :=
  grounded_foldlM_extend hmapping what quiet (List.nil_append _).symm .empty fun _ => rfl

theorem grounded_within [HasLeaves α] {n : Node} {what : String}
    {k : Section → Checked (Option α)} (h : root.Contains n)
    (hk : ∀ s, s.IsOf root → (k s).Grounded root (IsFrom root)) :
    (within what n k).Grounded root (IsFrom root) := by
  refine Grounded.andThen ?_ isFrom_none hk
  refine (Entry.grounded_readAll h what).andThen .none ?_
  rintro _ ⟨kvs, pos, hmapping, rfl⟩
  exact (grounded_distinct hmapping what []).ifPresent

/-- Two forms of permissions conflict where the later one of them stands. -/
theorem isEvidenced_formConflict {what : String} {es : List Entry} {p : Problem}
    (hes : ∀ e ∈ es, e.IsOf root) (h : formConflict? what es = some p) : p.IsEvidenced root := by
  simp only [formConflict?, Option.bind_eq_bind, Option.bind_eq_some_iff] at h
  obtain ⟨blanket, hblanket, perScope, hperScope, _, _, hp⟩ := h
  obtain rfl := Option.some.inj hp
  have hof : ∀ {e} {q : Entry → Bool},
      (es.filter fun e => e.key.value == permissionsKey).find? q = some e → e.IsOf root :=
    fun he => hes _ (List.mem_of_mem_filter (List.mem_of_find?_eq_some he))
  refine ⟨?_, trivial⟩
  show ∃ n, root.Contains n ∧ n.pos = blanket.key.pos.later perScope.key.pos
  unfold Position.later
  split
  · exact isFrom_pos.mp (hof hperScope).key.pos
  · exact isFrom_pos.mp (hof hblanket).key.pos

theorem grounded_withinOwner [HasLeaves α] {n : Node} {what : String}
    {k : Section → Checked (Option α)} (h : root.Contains n)
    (hk : ∀ s, s.IsOf root → (k s).Grounded root (IsFrom root)) :
    (withinOwner what n k).Grounded root (IsFrom root) := by
  refine Grounded.andThen ?_ isFrom_none hk
  refine (Entry.grounded_readAll h what).andThen .none ?_
  rintro _ ⟨kvs, pos, hmapping, rfl⟩
  have hes : ∀ e ∈ kvs.filterMap Entry.ofPair?, e.IsOf root := by
    intro e he
    obtain ⟨kv, hkv, he⟩ := List.mem_filterMap.mp he
    exact ⟨kvs, pos, hmapping, kv, hkv, he⟩
  split
  · exact (grounded_distinct hmapping what []).ifPresent
  · next hconflict =>
    refine (grounded_reportAll ?_).bind fun _ _ => (grounded_distinct hmapping what _).ifPresent
    exact List.forall_mem_singleton.mpr (isEvidenced_formConflict hes hconflict)

/-- What is read of free keys comes from the node if each value does. -/
theorem grounded_free [HasLeaves α] {n : Node} {what : String}
    {read : Entry → Checked (Option α)} (h : root.Contains n)
    (hread : ∀ e, e.IsOf root → (read e).Grounded root (IsFrom root)) :
    (within what n fun s => some <$> s.collect read).Grounded root (IsFrom root) := by
  refine grounded_within h fun s hs => Grounded.some ⟨isFrom_keyed.mpr fun x hx => ?_, ?_⟩
  · simp only [collect, keyed, List.filterMap_map, List.mem_filterMap, Function.comp_apply,
      Option.map_eq_some_iff] at hx
    obtain ⟨e, he, a, ha, rfl⟩ := hx
    exact ⟨(hs e he).key.key, isFrom_option.mp (hread e (hs e he)).value a ha⟩
  · intro p hp
    simp only [collect, List.flatMap_map, List.mem_flatMap] at hp
    obtain ⟨e, he, hp⟩ := hp
    exact (hread e (hs e he)).problems p hp

end Section

/-! ### Forms -/

/-- What was read of known keys has a property, and all problems are evidenced by a node. -/
structure Form.Grounded (root : Node) (P : α → Prop) (f : Form α) : Prop where
  value : P f.value
  fields : ∀ field ∈ f.fields, ∀ p ∈ field.2, p.IsEvidenced root

theorem Form.Grounded.pure {a : α} (h : P a) : (pure a : Form α).Grounded root P :=
  ⟨h, fun _ hf => nomatch hf⟩

theorem Form.Grounded.bind {f : Form α} {k : α → Form β} (h : f.Grounded root P)
    (hk : ∀ a, P a → (k a).Grounded root Q) : (f >>= k).Grounded root Q where
  value := (hk _ h.value).value
  fields := List.forall_mem_append.mpr ⟨h.fields, (hk _ h.value).fields⟩

namespace Section

variable {s : Section}

theorem grounded_field [HasLeaves α] {key : String} {read : Node → Checked (Option α)}
    (hs : s.IsOf root) (h : ∀ n, root.Contains n → (read n).Grounded root (IsFrom root)) :
    (s.field key read).Grounded root (IsFrom root) := by
  unfold field get?
  rcases e : s.find? key with - | entry
  · exact ⟨isFrom_none, List.forall_mem_singleton.mpr fun _ hp => nomatch hp⟩
  · have hread := h entry.value (hs.find? e).value
    exact ⟨hread.value, List.forall_mem_singleton.mpr hread.problems⟩

theorem grounded_fieldWithKey {key : String} {read : Node → Checked (Option α)}
    (hs : s.IsOf root) (h : ∀ n, root.Contains n → (read n).Grounded root (IfPresent P)) :
    (s.fieldWithKey key read).Grounded root
      (IfPresent fun x => IsFrom root x.1 ∧ P x.2) := by
  unfold fieldWithKey
  rcases e : s.find? key with - | entry
  · exact ⟨.none, List.forall_mem_singleton.mpr fun _ hp => nomatch hp⟩
  · have hread := h entry.value (hs.find? e).value
    refine ⟨?_, List.forall_mem_singleton.mpr hread.problems⟩
    intro x hx
    obtain ⟨a, ha, rfl⟩ := Option.map_eq_some_iff.mp hx
    exact ⟨(hs.find? e).key, hread.value a ha⟩

theorem grounded_fill {policy : Policy} {what : String} {form : Form α} (hs : s.IsOf root)
    (h : form.Grounded root P) : (s.fill policy what form).Grounded root P where
  value := h.value
  problems := by
    intro p hp
    obtain ⟨e, he, hp⟩ := List.mem_flatMap.mp hp
    unfold entryProblems at hp
    split at hp
    · next ps hlookup =>
      obtain ⟨before, behind, hfields, -⟩ := List.lookup_eq_some_iff.mp hlookup
      exact h.fields (e.key.value, ps) (by simp [hfields]) p hp
    · split at hp
      · cases hp
      · obtain rfl := List.mem_singleton.mp hp
        exact ⟨isFrom_pos.mp (hs e he).key.pos, (hs e he).leaf⟩

theorem grounded_require [HasLeaves α] {value : Option α} {key what : String} {pos : Position}
    (h : IsFrom root value) (hpos : IsFrom root pos) :
    (s.require value key what pos).Grounded root (IsFrom root) := by
  refine ⟨h, ?_⟩
  unfold require
  split
  · exact List.forall_mem_singleton.mpr ⟨isFrom_pos.mp hpos, trivial⟩
  · exact fun _ hp => nomatch hp

end Section

end WorkflowTree
