import WorkflowTree.Proofs.Reordering.Form

/-!
# Transferring what is read

Two runs of a reader are compared, on two nodes or under two policies.  The first one *transfers* to
the second (`Checked.Transfers`) if the second one gives the same value and finds the same problems.
This may be said of all runs, or only of those in which nothing is found wrong; a proposition
`always` tells which of the two is meant, so that both are proved at once.

There is one rule for each way in which readers are put together.
-/

namespace WorkflowTree

variable {α β γ δ : Type} {always : Prop}

namespace Checked

/-- If nothing is wrong with the first value, or always, the values are related and the problems are
the same. -/
def TransfersBy (always : Prop) (R : α → β → Prop) (c : Checked α) (d : Checked β) : Prop :=
  always ∨ c.Clean → R c.value d.value ∧ d.problems = c.problems

/-- If nothing is wrong with the first value, or always, the second one is the same. -/
def Transfers (always : Prop) (c d : Checked α) : Prop := c.TransfersBy always Eq d

variable {R : α → β → Prop} {S : γ → δ → Prop} {c : Checked α} {d : Checked β}

theorem TransfersBy.pure {a : α} {b : β} (h : R a b) :
    (pure a : Checked α).TransfersBy always R (pure b) := fun _ => ⟨h, rfl⟩

theorem TransfersBy.bind {k : α → Checked γ} {l : β → Checked δ} (h : c.TransfersBy always R d)
    (hkl : ∀ a b, R a b → (k a).TransfersBy always S (l b)) :
    (c >>= k).TransfersBy always S (d >>= l) := by
  intro hclean
  -- if nothing is wrong in the end, nothing was wrong before
  obtain ⟨hvalue, hproblems⟩ := h (hclean.imp_right fun h => (clean_bind.mp h).1)
  obtain ⟨hvalue', hproblems'⟩ := hkl c.value d.value hvalue
    (hclean.imp_right fun h => (clean_bind.mp h).2)
  refine ⟨hvalue', ?_⟩
  rw [problems_bind, problems_bind, hproblems, hproblems']

/-- What goes on with the value has the value only if it is there. -/
theorem TransfersBy.andThen {S : Option γ → Option δ → Prop} {c : Checked (Option α)}
    {d : Checked (Option β)} {k : α → Checked (Option γ)} {l : β → Checked (Option δ)}
    (h : c.TransfersBy always (Option.Rel R) d) (hS : S none none)
    (hkl : ∀ a b, R a b → (k a).TransfersBy always S (l b)) :
    (c.andThen k).TransfersBy always S (d.andThen l) := by
  intro hclean
  obtain ⟨hvalue, hproblems⟩ := h (hclean.imp_right fun h => (clean_andThen.mp h).1)
  obtain ⟨hc, hd⟩ | ⟨a, b, hc, hd, hab⟩ := optionRel_cases hvalue
  · -- both runs stop here
    rw [andThen_of_none hc, andThen_of_none hd]
    exact ⟨hS, hproblems⟩
  · obtain ⟨hvalue', hproblems'⟩ := hkl a b hab
      (hclean.imp_right fun h => (clean_andThen.mp h).2 a hc)
    rw [andThen_of_some hc, andThen_of_some hd]
    refine ⟨hvalue', ?_⟩
    rw [hproblems, hproblems']

section Equal

variable {c d : Checked α}

theorem transfers_of_eq (h : c = d) : c.Transfers always d := by
  subst h
  exact fun _ => ⟨rfl, rfl⟩

theorem Transfers.bind {k : α → Checked γ} {l : α → Checked δ} (h : c.Transfers always d)
    (hkl : ∀ a, (k a).TransfersBy always S (l a)) : (c >>= k).TransfersBy always S (d >>= l) := by
  refine TransfersBy.bind h ?_
  rintro a _ rfl
  exact hkl a

theorem Transfers.map {f : α → γ} (h : c.Transfers always d) :
    (f <$> c).Transfers always (f <$> d) := by
  intro hclean
  obtain ⟨hvalue, hproblems⟩ := h (hclean.imp_right clean_map.mp)
  refine ⟨congrArg f hvalue, ?_⟩
  rw [problems_map, problems_map, hproblems]

theorem Transfers.andThen {c d : Checked (Option α)} {k l : α → Checked (Option γ)}
    (h : c.Transfers always d) (hkl : ∀ a, (k a).Transfers always (l a)) :
    (c.andThen k).Transfers always (d.andThen l) := by
  refine TransfersBy.andThen (R := Eq) (S := Eq) ?_ rfl ?_
  · intro hclean
    obtain ⟨hvalue, hproblems⟩ := h hclean
    exact ⟨hvalue ▸ optionRel_refl (fun _ => rfl) c.value, hproblems⟩
  · rintro a _ rfl
    exact hkl a

/-- Parts that are read one by one. -/
theorem transfers_collect {P : γ → δ → Prop} {read : γ → Checked (Option α)}
    {read' : δ → Checked (Option α)} {cs : List γ} {ds : List δ} (h : List.Forall₂ P cs ds)
    (hread : ∀ c d, P c d → (read c).Transfers always (read' d)) :
    (collect (cs.map read)).Transfers always (collect (ds.map read')) := by
  induction h with
  | nil => exact transfers_of_eq rfl
  | @cons c d cs ds hcd _ ih =>
    intro hclean
    -- if nothing is wrong with all parts, nothing is wrong with the first one and with the others
    have hparts : always ∨ (read c).Clean ∧ (collect (cs.map read)).Clean := by
      refine hclean.imp_right fun hclean => ?_
      rw [clean_collect, List.map_cons, List.forall_mem_cons] at hclean
      exact ⟨hclean.1, clean_collect.mpr hclean.2⟩
    obtain ⟨hvalue, hproblems⟩ := hread c d hcd (hparts.imp_right And.left)
    obtain ⟨hvalues, hrest⟩ := ih (hparts.imp_right And.right)
    rw [value_collect, value_collect] at hvalues
    rw [problems_collect, problems_collect] at hrest
    refine ⟨?_, ?_⟩
    · rw [value_collect, value_collect, List.map_cons, List.map_cons, List.filterMap_cons,
        List.filterMap_cons, hvalue, hvalues]
    · rw [problems_collect, problems_collect, List.map_cons, List.map_cons, List.flatMap_cons,
        List.flatMap_cons, hproblems, hrest]

end Equal

end Checked

open Checked

/-! ### Forms -/

namespace Form

/-- Nothing is wrong under the keys that a section has. -/
def CleanIn (s : Section) (f : Form α) : Prop :=
  ∀ field ∈ f.fields, s.has field.1 = true → field.2 = []

/-- If nothing is wrong with the first form in a section, or always, the values are related and
under each known key the problems are the same. -/
def TransfersBy (always : Prop) (s : Section) (R : α → β → Prop) (f : Form α) (g : Form β) : Prop :=
  always ∨ f.CleanIn s → R f.value g.value ∧ g.fields = f.fields

variable {s : Section} {R : α → β → Prop} {S : γ → δ → Prop} {f : Form α} {g : Form β}

theorem cleanIn_bind {k : α → Form β} :
    (f >>= k).CleanIn s ↔ f.CleanIn s ∧ (k f.value).CleanIn s := by
  unfold CleanIn
  rw [fields_bind, List.forall_mem_append]

theorem TransfersBy.pure {a : α} {b : β} (h : R a b) :
    (pure a : Form α).TransfersBy always s R (pure b) := fun _ => ⟨h, rfl⟩

theorem TransfersBy.bind {k : α → Form γ} {l : β → Form δ} (h : f.TransfersBy always s R g)
    (hkl : ∀ a b, R a b → (k a).TransfersBy always s S (l b)) :
    (f >>= k).TransfersBy always s S (g >>= l) := by
  intro hclean
  obtain ⟨hvalue, hfields⟩ := h (hclean.imp_right fun h => (cleanIn_bind.mp h).1)
  obtain ⟨hvalue', hfields'⟩ := hkl f.value g.value hvalue
    (hclean.imp_right fun h => (cleanIn_bind.mp h).2)
  refine ⟨hvalue', ?_⟩
  rw [fields_bind, fields_bind, hfields, hfields']

/-- Going on with the same value. -/
theorem TransfersBy.bindEq {f g : Form α} {k : α → Form γ} {l : α → Form δ}
    (h : f.TransfersBy always s Eq g) (hkl : ∀ a, (k a).TransfersBy always s S (l a)) :
    (f >>= k).TransfersBy always s S (g >>= l) := by
  refine h.bind ?_
  rintro a _ rfl
  exact hkl a

end Form

namespace Section

variable {s s' : Section} {policy policy' : Policy} {what key : String}
variable {value : Option String → Node → Node → Prop}

theorem AlikeInPlace.alike (h : s.AlikeInPlace value s') : s.Alike value s' :=
  ⟨s'.entries, h, .refl _⟩

/-- Filling a form: the same keys are unknown, and what is known is the same. -/
theorem transfers_fill {R : α → β → Prop} {f : Form α} {g : Form β} (nodup : f.keys.Nodup)
    (hpolicy : policy'.allowUnknownKeys = policy.allowUnknownKeys) (hs : s.AlikeInPlace value s')
    (h : f.TransfersBy always s R g) :
    (s.fill policy what f).TransfersBy always R (s'.fill policy' what g) := by
  intro hclean
  obtain ⟨hvalue, hfields⟩ := h (hclean.imp_right fun h => ((clean_fill nodup).mp h).2)
  refine ⟨hvalue, ?_⟩
  show s'.entries.flatMap (entryProblems policy' what g) =
    s.entries.flatMap (entryProblems policy what f)
  unfold AlikeInPlace at hs
  generalize s.entries = es, s'.entries = es' at hs
  induction hs with
  | nil => rfl
  | @cons e e' es es' he _ ih =>
    -- what is wrong with an entry depends on its key and on the form
    have hentry : entryProblems policy' what g e' = entryProblems policy what f e := by
      unfold entryProblems Form.keys
      rw [hfields, ← he.key, hpolicy]
    rw [List.flatMap_cons, List.flatMap_cons, hentry, ih]

section Field

variable {read read' : Node → Checked (Option α)}

/-- What is under a key that may be left out. -/
theorem transfers_field (hs : s.AlikeInPlace value s')
    (h : ∀ v v', value (some key) v v' → (read v).Transfers always (read' v')) :
    (s.field key read).TransfersBy always s Eq (s'.field key read') := by
  intro hclean
  rw [value_field, value_field, fields_field, fields_field, problemsAt, problemsAt]
  obtain ⟨hv, hv'⟩ | ⟨v, v', hv, hv', hvalue⟩ := optionRel_cases (hs.alike.get? key)
  · rw [hv, hv']
    exact ⟨rfl, rfl⟩
  · -- the problems of the value stand under its key
    have hread : always ∨ (read v).Clean := by
      refine hclean.imp_right fun hclean => ?_
      have hfield := hclean (key, s.problemsAt key read) (by simp) (has_iff.mpr ⟨v, hv⟩)
      rwa [problemsAt, hv] at hfield
    obtain ⟨hvalue, hproblems⟩ := h v v' hvalue hread
    rw [hv, hv', Option.bind_some, Option.bind_some, Option.elim_some, Option.elim_some, hproblems]
    exact ⟨hvalue, rfl⟩

theorem transfers_fieldWithKey (hs : s.AlikeInPlace value s')
    (h : ∀ v v', value (some key) v v' → (read v).Transfers always (read' v')) :
    (s.fieldWithKey key read).TransfersBy always s Eq (s'.fieldWithKey key read') := by
  intro hclean
  have hfields : always ∨ (s.field key read).CleanIn s := by
    refine hclean.imp_right fun hclean => ?_
    unfold Form.CleanIn at hclean ⊢
    rwa [fields_field, ← fields_fieldWithKey]
  obtain ⟨hvalue, hproblems⟩ := transfers_field hs h hfields
  refine ⟨?_, by rw [fields_fieldWithKey, fields_fieldWithKey, ← fields_field, ← fields_field,
    hproblems]⟩
  -- the value is given with its key, which has the same place in both sections
  rw [value_field, value_field, get?, get?] at hvalue
  rw [value_fieldWithKey, value_fieldWithKey]
  obtain ⟨he, he'⟩ | ⟨e, e', he, he', hee'⟩ := optionRel_cases (hs.alike.find? key)
  · rw [he, he']
    rfl
  · rw [he, he', Option.map_some, Option.map_some, Option.bind_some, Option.bind_some] at hvalue
    rw [he, he', Option.bind_some, Option.bind_some, hvalue, hee'.key]

end Field

theorem transfers_require (hs : s.AlikeInPlace value s') (o : Option α) (pos : Position) :
    (s.require o key what pos).Transfers always (s'.require o key what pos) := by
  refine transfers_of_eq ?_
  unfold require
  rw [hs.alike.has key]

/-- What is under free keys. -/
theorem transfers_sectionCollect {read read' : Entry → Checked (Option α)}
    (hs : s.AlikeInPlace value s')
    (h : ∀ e e', Entry.Alike value e e' → (read e).Transfers always (read' e')) :
    (s.collect read).Transfers always (s'.collect read') := by
  intro hclean
  have hcollect : (Checked.collect (s.entries.map fun e =>
      (Option.map (e.key.value, ·)) <$> read e)).Transfers always
      (Checked.collect (s'.entries.map fun e => (Option.map (e.key.value, ·)) <$> read' e)) :=
    transfers_collect hs fun e e' he => he.key ▸ (h e e' he).map
  obtain ⟨hvalue, hproblems⟩ := hcollect (hclean.imp_right fun hclean => by
    simpa [collect, Checked.Clean] using hclean)
  refine ⟨?_, ?_⟩
  · -- which entries are gathered depends on what is read of each of them
    apply Keyed.eq_of_entries
    simpa [collect, keyed, List.filterMap_map, Function.comp_def] using hvalue
  · simpa [collect, List.flatMap_map] using hproblems

end Section

end WorkflowTree
