import WorkflowTree.Proofs.Reordering.Alike

/-!
# Sections in another order

What is done with a section does not depend on the order of its entries: looking up a key, filling a
form and gathering free keys give the same values, and the same problems in some order.
-/

namespace WorkflowTree

open Checked Node

variable {α β γ δ : Type} {n n' : Node} {what key : String} {policy : Policy}
variable {value : Option String → Node → Node → Prop} {s s' : Section}

/-! ### Looking up keys -/

namespace Section

theorem find?_of_forall₂ {es es' : List Entry} (h : List.Forall₂ (Entry.Alike value) es es')
    (key : String) : Option.Rel (Entry.Alike value) (es.find? fun e => e.key.value == key)
      (es'.find? fun e => e.key.value == key) :=
  optionRel_find? h fun e e' he => by rw [he.key]

theorem Alike.find? (h : s.Alike value s') (key : String) :
    Option.Rel (Entry.Alike value) (s.find? key) (s'.find? key) := by
  obtain ⟨es, hes, hperm⟩ := h
  -- keys are distinct, so the order does not decide what is found
  have hnodup : (es.map fun e => e.key.value).Nodup := (hperm.map _).nodup_iff.mpr s'.nodup
  have hshuffled : Section.find? ⟨es, hnodup⟩ key = s'.find? key := by
    ext e
    rw [find?_eq_some, find?_eq_some, hperm.mem_iff]
  rw [← hshuffled]
  exact find?_of_forall₂ hes key

theorem Alike.get? (h : s.Alike value s') (key : String) :
    Option.Rel (value (some key)) (s.get? key) (s'.get? key) := by
  unfold Section.get?
  obtain ⟨he, he'⟩ | ⟨e, e', he, he', hee'⟩ := optionRel_cases (h.find? key)
  · rw [he, he']
    exact .none
  · have hkey : e.key.value = key := (find?_eq_some.mp he).2
    have hvalue := hee'.value
    rw [hkey] at hvalue
    rw [he, he']
    exact .some hvalue

theorem Alike.has (h : s.Alike value s') (key : String) : s.has key = s'.has key := by
  unfold Section.has
  obtain ⟨he, he'⟩ | ⟨e, e', he, he', -⟩ := optionRel_cases (h.find? key)
  · rw [he, he']
  · rw [he, he', Option.isSome_some, Option.isSome_some]

end Section

/-! ### Forms -/

/-- The values are related, and under each known key the problems are the same, in some order. -/
structure Form.Alike (R : α → β → Prop) (f : Form α) (g : Form β) : Prop where
  value : R f.value g.value
  fields : List.Forall₂ (fun x y => x.1 = y.1 ∧ x.2.Perm y.2) f.fields g.fields

namespace Form

variable {R : α → β → Prop} {S : γ → δ → Prop} {f : Form α} {g : Form β}

theorem Alike.pure {a : α} {b : β} (h : R a b) : (pure a : Form α).Alike R (pure b) := ⟨h, .nil⟩

theorem Alike.bind {k : α → Form γ} {l : β → Form δ} (h : f.Alike R g)
    (hkl : ∀ a b, R a b → (k a).Alike S (l b)) : (f >>= k).Alike S (g >>= l) := by
  have hrest := hkl f.value g.value h.value
  exact ⟨hrest.value, List.rel_append h.fields hrest.fields⟩

/-- Going on with one value on both sides. -/
theorem Alike.bindEq {f g : Form α} {k : α → Form γ} {l : α → Form δ} (h : f.Alike Eq g)
    (hkl : ∀ a, (k a).Alike S (l a)) : (f >>= k).Alike S (g >>= l) := by
  refine h.bind ?_
  rintro a _ rfl
  exact hkl a

theorem Alike.mono {R' : α → β → Prop} (h : f.Alike R g) (hR : ∀ a b, R a b → R' a b) :
    f.Alike R' g := ⟨hR _ _ h.value, h.fields⟩

theorem Alike.keys (h : f.Alike R g) : f.keys = g.keys := by
  have hfields := h.fields
  unfold Form.keys
  generalize f.fields = xs, g.fields = ys at hfields
  induction hfields with
  | nil => rfl
  | cons hxy _ ih => rw [List.map_cons, List.map_cons, hxy.1, ih]

theorem Alike.lookup (h : f.Alike R g) (key : String) :
    Option.Rel List.Perm (f.fields.lookup key) (g.fields.lookup key) := by
  have hfields := h.fields
  -- both forms list the same keys in the same order, so both look-ups stop together
  generalize f.fields = xs, g.fields = ys at hfields
  induction hfields with
  | nil => exact .none
  | @cons x y xs ys hxy _ ih =>
    obtain ⟨hkey, hproblems⟩ := hxy
    rw [Keyed.lookup_cons, Keyed.lookup_cons, ← hkey]
    split
    · exact .some hproblems
    · exact ih

end Form

namespace Section

/-- What is under a key that may be left out. -/
theorem alike_field {Q : Option α → Option β → Prop} {read : Node → Checked (Option α)}
    {read' : Node → Checked (Option β)} (hQ : Q none none) (hs : s.Alike value s')
    (h : ∀ v v', value (some key) v v' → (read v).Alike Q (read' v')) :
    (s.field key read).Alike Q (s'.field key read') := by
  unfold field
  obtain ⟨hv, hv'⟩ | ⟨v, v', hv, hv', hvv'⟩ := optionRel_cases (hs.get? key)
  · rw [hv, hv']
    exact ⟨hQ, .cons ⟨rfl, .nil⟩ .nil⟩
  · rw [hv, hv']
    have hread := h v v' hvv'
    exact ⟨hread.value, .cons ⟨rfl, hread.problems⟩ .nil⟩

/-- What is under a key, if permuting it makes no difference to what is read. -/
theorem alike_field_eq {read : Node → Checked (Option α)} (hs : s.Alike value s')
    (h : ∀ v v', value (some key) v v' → read v = read v') :
    (s.field key read).Alike Eq (s'.field key read) :=
  alike_field rfl hs fun v v' hv => alike_of_eq (h v v' hv)

theorem alike_fieldWithKey {R : α → β → Prop} {read : Node → Checked (Option α)}
    {read' : Node → Checked (Option β)} (hs : s.Alike value s')
    (h : ∀ v v', value (some key) v v' → (read v).Alike (Option.Rel R) (read' v')) :
    (s.fieldWithKey key read).Alike (Option.Rel fun x y => x.1 = y.1 ∧ R x.2 y.2)
      (s'.fieldWithKey key read') := by
  unfold fieldWithKey
  obtain ⟨he, he'⟩ | ⟨e, e', he, he', hkeys, hvalue⟩ := optionRel_cases (hs.find? key)
  · rw [he, he']
    exact ⟨.none, .cons ⟨rfl, .nil⟩ .nil⟩
  · have hkey : e.key.value = key := (find?_eq_some.mp he).2
    rw [hkey] at hvalue
    have hread := h e.value e'.value hvalue
    rw [he, he']
    refine ⟨?_, .cons ⟨rfl, hread.problems⟩ .nil⟩
    have hpair := hread.optionMap (S := fun x y => x.1 = y.1 ∧ R x.2 y.2)
      (f := (e.key, ·)) (g := (e'.key, ·)) fun a b hab => ⟨hkeys, hab⟩
    exact hpair.value

theorem alike_fieldWithKey_eq {read : Node → Checked (Option α)} (hs : s.Alike value s')
    (h : ∀ v v', value (some key) v v' → read v = read v') :
    (s.fieldWithKey key read).Alike Eq (s'.fieldWithKey key read) := by
  refine (alike_fieldWithKey hs fun v v' hv => (alike_of_eq (h v v' hv)).optionRel).mono ?_
  intro o o' ho
  obtain ⟨rfl, rfl⟩ | ⟨x, y, rfl, rfl, hkey, hvalue⟩ := optionRel_cases ho
  · rfl
  · rw [Prod.ext hkey hvalue]

/-- What is wrong with an entry depends on its key and on what was read under it. -/
theorem perm_entryProblems {R : α → β → Prop} {f : Form α} {g : Form β} {e e' : Entry}
    (h : f.Alike R g) (he : e.key = e'.key) :
    (entryProblems policy what f e).Perm (entryProblems policy what g e') := by
  unfold entryProblems
  rw [← he, h.keys]
  obtain ⟨hf, hg⟩ | ⟨ps, qs, hf, hg, hperm⟩ := optionRel_cases (h.lookup e.key.value)
  · rw [hf, hg]
  · rw [hf, hg]
    exact hperm

theorem alike_fill {R : α → β → Prop} {f : Form α} {g : Form β} (hs : s.Alike value s')
    (h : f.Alike R g) : (s.fill policy what f).Alike R (s'.fill policy what g) := by
  obtain ⟨es, hes, hperm⟩ := hs
  refine ⟨h.value, ?_⟩
  -- each entry has its problems wherever it stands
  have hentries : (s.entries.flatMap (entryProblems policy what f)).Perm
      (es.flatMap (entryProblems policy what g)) :=
    perm_flatMap_of_forall₂ hes fun e e' he => perm_entryProblems h he.key
  exact hentries.trans (hperm.flatMap_right _)

theorem alike_require {Q : Option α → Option β → Prop} {o : Option α} {o' : Option β}
    {pos : Position} (hs : s.Alike value s') (h : Q o o') (hnone : o.isNone = o'.isNone) :
    (s.require o key what pos).Alike Q (s'.require o' key what pos) := by
  refine ⟨h, ?_⟩
  unfold require
  rw [hnone, hs.has key]

/-! ### Free keys -/

theorem alike_collect {R : α → α → Prop} {read read' : Entry → Checked (Option α)}
    (hs : s.Alike value s')
    (h : ∀ e e', Entry.Alike value e e' → (read e).Alike (Option.Rel R) (read' e')) :
    (s.collect read).Alike (Keyed.SameBy R) (s'.collect read') := by
  constructor
  · intro key
    rw [find?_collect, find?_collect]
    obtain ⟨he, he'⟩ | ⟨e, e', he, he', hee'⟩ := optionRel_cases (hs.find? key)
    · rw [he, he']
      exact .none
    · rw [he, he']
      exact (h e e' hee').value
  · obtain ⟨es, hes, hperm⟩ := hs
    have hentries := perm_flatMap_of_forall₂ hes fun e e' he => (h e e' he).problems
    simp only [collect, List.flatMap_map]
    exact hentries.trans (hperm.flatMap_right _)

/-- What is read of free keys is the same, if what is read of each entry is. -/
theorem alike_free {R : α → α → Prop} {read read' : Entry → Checked (Option α)} (h : n.Alike n')
    (hread : ∀ e e', e.key = e'.key → e.value.Alike e'.value →
      (read e).Alike (Option.Rel R) (read' e')) :
    (within what n fun s => some <$> s.collect read).Alike (Option.Rel (Keyed.SameBy R))
      (within what n' fun s => some <$> s.collect read') := by
  refine alike_within .none h fun s s' hs => Alike.some ?_
  exact alike_collect hs fun e e' he => hread e e' he.key he.value

/-- What is read of free keys is the same, if what is read of each entry is equal. -/
theorem alike_free_eq {read read' : Entry → Checked (Option α)} (h : n.Alike n')
    (hread : ∀ e e', e.key = e'.key → e.value.Alike e'.value → (read e).Alike Eq (read' e')) :
    (within what n fun s => some <$> s.collect read).Alike (Option.Rel Keyed.Same)
      (within what n' fun s => some <$> s.collect read') := by
  refine (alike_free h fun e e' hkey hv => (hread e e' hkey hv).optionRel).mono fun o o' ho => ?_
  obtain ⟨rfl, rfl⟩ | ⟨m, m', rfl, rfl, hm⟩ := optionRel_cases ho
  · exact .none
  · refine .some fun key => ?_
    obtain ⟨ha, ha'⟩ | ⟨a, _, ha, ha', rfl⟩ := optionRel_cases (hm key)
    · rw [ha, ha']
    · rw [ha, ha']

end Section

end WorkflowTree
