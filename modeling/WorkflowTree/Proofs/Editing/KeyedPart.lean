import WorkflowTree.Edit.Unique
import WorkflowTree.Proofs.Editing.Run
import WorkflowTree.Proofs.Reading.Related
import WorkflowTree.Proofs.Reading.Section

/-!
# Keyed parts

A keyed part comes about in two ways: values are added to it one by one, or it is read from a
mapping.  Both see to it that no name is given twice, but not in the same way.  The one asks the
collection of the values so far and stops at the first name that is taken; the other one keeps the
first entry of each key and reports the others.

A `KeyedPart` says where both of them take place.  They go in step: as long as no name is taken, the
collection has the names of the section (`KeyedPart.Mirrors`), so the same name is taken on both
sides, since the same place.

* `KeyedPart.step_cases` says so of one value and its entry;
* `KeyedPart.run_cases` says so of lists of them.
-/

namespace WorkflowTree

open Checked

variable {σ ε α : Type}

/-- The problem of a name that is taken since a place. -/
def Problem.repeated (scope : String) (name : Text) (first : Position) : Problem :=
  ⟨.duplicate scope name.value first, name.pos⟩

/-- A part that holds values under their names.  It is edited by adding values, and it is read from
a section, each value from an entry. -/
structure KeyedPart (σ ε α : Type) where
  name : α → Text
  /-- How the part is called when it is read. -/
  scope : String
  readEntry : Entry → Checked (Option α)
  read : Node → Checked (Option (Keyed α))
  edit : σ → ε → Except Problem σ
  add : α → ε
  /-- The part, if there is one. -/
  part : σ → Option (Keyed α)
  put : σ → Keyed α → σ
  /-- How the part is called when it is edited. -/
  label : σ → String
  name_readEntry : ∀ e a, (readEntry e).value = some a → name a = e.key
  explained_readEntry : ∀ e, (readEntry e).Explained
  read_eq : ∀ n, read n = Section.within scope n fun s => some <$> s.collect readEntry
  part_put : ∀ s m m', part s = some m → part (put s m') = some m'
  edit_add : ∀ s m a, part s = some m → edit s (add a) =
    (m.addUnique (label s) (name a) a fun b => (name b).pos) >>= fun m' => .ok (put s m')

/-! ### First steps -/

/-- A first edit that is made leaves the others to be made. -/
theorem editAll_cons_of_ok {edit : σ → ε → Except Problem σ} {s t : σ} {x : ε} {xs : List ε}
    (h : edit s x = .ok t) : editAll edit s (x :: xs) = editAll edit t xs := by
  rw [editAll, List.foldlM_cons, h]
  rfl

/-- A first entry that is no repeat leaves the problems to the others. -/
theorem Section.problems_extend_cons {what : String} {sec : Section} {e : Entry} {es : List Entry}
    (h : (extend what [] sec e).problems = []) :
    ((e :: es).foldlM (extend what []) sec).problems =
      (es.foldlM (extend what []) (extend what [] sec e).value).problems := by
  rw [List.foldlM_cons, problems_bind, h, List.nil_append]

/-! ### Names in collections -/

/-- A value that is stored under its own name is found by it. -/
theorem Keyed.NamedBy.find?_eq {name : α → String} {m : Keyed α} (h : m.NamedBy name)
    (key : String) : m.find? key = m.values.find? fun a => name a == key := by
  have hlookup : ∀ as : List α,
      (as.map fun a => (name a, a)).lookup key = as.find? fun a => name a == key := by
    intro as
    induction as with
    | nil => rfl
    | cons a as ih =>
      rw [List.map_cons, Keyed.lookup_cons, ih]
      by_cases hkey : name a = key
      · rw [List.find?_cons_of_pos (by simpa using hkey), if_pos hkey.symm]
      · rw [List.find?_cons_of_neg (by simpa using hkey), if_neg (Ne.symm hkey)]
  rw [Keyed.find?, Keyed.namedBy_iff.mp h, hlookup]

namespace KeyedPart

variable {k : KeyedPart σ ε α} {s t : σ} {m : Keyed α} {sec : Section} {a : α} {e : Entry}
variable {as : List α} {es : List Entry}

/-- The name of a value is the key of an entry. -/
def Names (k : KeyedPart σ ε α) (a : α) (e : Entry) : Prop := e.key = k.name a

/-- A collection has the names of a section, at the same places and in the same order. -/
structure Mirrors (k : KeyedPart σ ε α) (m : Keyed α) (sec : Section) : Prop where
  named : m.NamedBy fun a => (k.name a).value
  names : List.Forall₂ k.Names m.values sec.entries

theorem mirrors_empty : k.Mirrors .empty .empty where
  named key a h := by cases h
  names := .nil

/-- What is found under a key on one side is found on the other. -/
theorem Mirrors.find? (h : k.Mirrors m sec) (key : String) :
    Option.Rel k.Names (m.find? key) (sec.find? key) := by
  rw [h.named.find?_eq]
  refine optionRel_find? h.names fun a e he => ?_
  rw [show e.key = k.name a from he]

/-! ### One more name -/

/-- A value whose name is free is added, and so is an entry with this name. -/
theorem Mirrors.add (h : k.Mirrors m sec) (ha : k.Names a e)
    (hfree : sec.find? e.key.value = none) : ∃ m', m'.values = m.values ++ [a] ∧
      k.Mirrors m' (sec.add e hfree) ∧ ∀ what, m.addUnique what (k.name a) a
        (fun b => (k.name b).pos) = .ok m' := by
  have hkey : e.key.value = (k.name a).value := congrArg Located.value ha
  -- the collection has the names of the section, so the name is free there too
  have hnone : m.find? (k.name a).value = none := by
    obtain ⟨hm, -⟩ | ⟨_, _, -, hsec, -⟩ := optionRel_cases (h.find? e.key.value)
    · rw [← hkey, hm]
    · rw [hfree] at hsec
      cases hsec
  have hnot : (k.name a).value ∉ m.keys := Keyed.find?_eq_none.mp hnone
  have hentries := Keyed.entries_insert (v := a) hnot
  have hvalues : (m.insert (k.name a).value a).values = m.values ++ [a] := by
    rw [Keyed.values, hentries, List.map_append]
    rfl
  refine ⟨m.insert (k.name a).value a, hvalues, ⟨?_, ?_⟩, fun what => ?_⟩
  · rw [Keyed.namedBy_iff, hvalues, hentries, List.map_append, ← Keyed.namedBy_iff.mp h.named]
    rfl
  · rw [hvalues]
    exact List.rel_append h.names (.cons ha .nil)
  · exact Keyed.addUnique_eq_ok.mpr ⟨hnot, rfl⟩

/-- **One step on both sides**: either the name is free and both take it up, or it is taken since the
same place, and both say so. -/
theorem step_cases (hs : k.part s = some m) (h : k.Mirrors m sec) (ha : k.Names a e) :
    (∃ t m', k.edit s (k.add a) = .ok t ∧ k.part t = some m' ∧ m'.values = m.values ++ [a] ∧
      (Section.extend k.scope [] sec e).problems = [] ∧
      k.Mirrors m' (Section.extend k.scope [] sec e).value) ∨
    ∃ b ∈ m.values, (k.name b).value = (k.name a).value ∧
      k.edit s (k.add a) = .error (.repeated (k.label s) (k.name a) (k.name b).pos) ∧
      Section.extend k.scope [] sec e = ⟨sec, [.repeated k.scope (k.name a) (k.name b).pos]⟩ := by
  rw [k.edit_add s m a hs]
  obtain ⟨hm, hfree⟩ | ⟨b, first, hb, hfirst, hnames⟩ := optionRel_cases (h.find? e.key.value)
  · -- the name is free
    obtain ⟨m', hvalues, hmirrors, hadd⟩ := h.add ha hfree
    refine .inl ⟨k.put s m', m', ?_, k.part_put s m m' hs, hvalues, ?_, ?_⟩
    · rw [hadd]
      rfl
    · rw [Section.extend_of_none hfree, problems_pure]
    · rw [Section.extend_of_none hfree, value_pure]
      exact hmirrors
  · -- the name is taken on both sides
    have hkey : e.key = k.name a := ha
    have hplace : first.key.pos = (k.name b).pos := congrArg Located.pos hnames
    have htaken : m.find? (k.name a).value = some b := by rw [← hkey, hb]
    refine .inr ⟨b, Keyed.mem_values.mpr ⟨_, hb⟩, ?_, ?_, ?_⟩
    · exact h.named _ b htaken
    · have herror : m.addUnique (k.label s) (k.name a) a (fun b => (k.name b).pos) =
          .error (.repeated (k.label s) (k.name a) (k.name b).pos) :=
        Keyed.addUnique_eq_error.mpr ⟨b, htaken, rfl⟩
      rw [herror]
      rfl
    · rw [Section.extend_of_some hfirst, hplace, hkey]
      rfl

/-! ### All names -/

/-- Values are added, and no entry is reported. -/
structure Made (k : KeyedPart σ ε α) (s : σ) (m : Keyed α) (sec : Section) (as : List α)
    (es : List Entry) (t : σ) (m' : Keyed α) : Prop where
  built : editAll k.edit s (as.map k.add) = .ok t
  part : k.part t = some m'
  values : m'.values = m.values ++ as
  problems : (es.foldlM (Section.extend k.scope []) sec).problems = []
  mirrors : k.Mirrors m' (es.foldlM (Section.extend k.scope []) sec).value

/-- The first values are added, and the next one is refused since its name is that of another one.
Its entry is the first one that is reported. -/
structure RefusedAt (k : KeyedPart σ ε α) (s : σ) (m : Keyed α) (sec : Section) (as : List α)
    (es : List Entry) (before : List α) (a b : α) (t : σ) : Prop where
  next : ∃ after, as = before ++ a :: after
  taken : b ∈ m.values ++ before
  name : (k.name b).value = (k.name a).value
  built : editAll k.edit s (before.map k.add) = .ok t
  refused : k.edit t (k.add a) = .error (.repeated (k.label t) (k.name a) (k.name b).pos)
  none : ((es.take before.length).foldlM (Section.extend k.scope []) sec).problems = []
  one : ((es.take (before.length + 1)).foldlM (Section.extend k.scope []) sec).problems =
    [.repeated k.scope (k.name a) (k.name b).pos]
  first : ∃ rest, (es.foldlM (Section.extend k.scope []) sec).problems =
    .repeated k.scope (k.name a) (k.name b).pos :: rest

/-- The first value was added, and a later one is refused. -/
theorem RefusedAt.cons {m' : Keyed α} {x : α} {y : Entry} {before : List α} {b : α} {t' : σ}
    (hbuilt : k.edit s (k.add x) = .ok t) (hvalues : m'.values = m.values ++ [x])
    (hproblems : (Section.extend k.scope [] sec y).problems = [])
    (h : k.RefusedAt t m' (Section.extend k.scope [] sec y).value as es before a b t') :
    k.RefusedAt s m sec (x :: as) (y :: es) (x :: before) a b t' where
  next := by
    obtain ⟨after, hafter⟩ := h.next
    exact ⟨after, by rw [hafter, List.cons_append]⟩
  taken := by
    have htaken := h.taken
    rwa [hvalues, List.append_assoc, List.singleton_append] at htaken
  name := h.name
  built := by
    rw [List.map_cons, editAll_cons_of_ok hbuilt]
    exact h.built
  refused := h.refused
  none := by
    rw [List.length_cons, List.take_succ_cons, Section.problems_extend_cons hproblems]
    exact h.none
  one := by
    rw [List.length_cons, List.take_succ_cons, Section.problems_extend_cons hproblems]
    exact h.one
  first := by
    rw [Section.problems_extend_cons hproblems]
    exact h.first

/-- **Both sides go in step**: all names are taken up on both, or the same one is refused first. -/
theorem run_cases (hs : k.part s = some m) (h : k.Mirrors m sec) (hes : List.Forall₂ k.Names as es) :
    (∃ t m', k.Made s m sec as es t m') ∨
      ∃ before a b t, k.RefusedAt s m sec as es before a b t := by
  induction hes generalizing s m sec with
  | nil => exact .inl ⟨s, m, rfl, hs, (List.append_nil _).symm, rfl, h⟩
  | @cons a e as es ha _ ih =>
    obtain ⟨t, m', hbuilt, ht, hvalues, hproblems, hmirrors⟩ | ⟨b, hb, hname, hrefused, hextend⟩ :=
      step_cases hs h ha
    · -- the first value is added, and the others decide
      obtain ⟨t', m'', hmade⟩ | ⟨before, a', b, t', hat⟩ := ih ht hmirrors
      · refine .inl ⟨t', m'', ?_, hmade.part, ?_, ?_, ?_⟩
        · rw [List.map_cons, editAll_cons_of_ok hbuilt]
          exact hmade.built
        · rw [hmade.values, hvalues, List.append_assoc, List.singleton_append]
        · rw [Section.problems_extend_cons hproblems]
          exact hmade.problems
        · rw [List.foldlM_cons, value_bind]
          exact hmade.mirrors
      · exact .inr ⟨a :: before, a', b, t', hat.cons hbuilt hvalues hproblems⟩
    · -- the first value is refused, and nothing is added before it
      refine .inr ⟨[], a, b, s, ⟨as, rfl⟩, ?_, hname, rfl, hrefused, rfl, ?_, ?_⟩
      · rw [List.append_nil]
        exact hb
      · rw [List.length_nil, Nat.zero_add, List.take_succ_cons, List.take_zero, List.foldlM_cons,
          problems_bind, hextend]
        rfl
      · rw [List.foldlM_cons, problems_bind, hextend]
        exact ⟨_, rfl⟩

end KeyedPart

end WorkflowTree
