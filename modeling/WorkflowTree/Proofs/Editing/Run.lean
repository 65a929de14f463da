import WorkflowTree.Edit.Unique
import Mathlib.Data.List.Duplicate

/-!
# Sequences of edits

What the edits of steps, jobs and workflows have in common.

An edit writes one part.  Some parts keep what was written last (`lastOf`).  Keyed parts keep
everything, and refuse a name that is taken (`Keyed.ExtendedBy`).  Both are described by what a
whole list of values does to the part, with one rule for the empty list and one for a first value.

`Describes` puts such rules together to a description of edits by their calls, in which the order
of edits of different kinds is lost.

* `Describes.editAll_eq_ok` goes from one edit to sequences of edits;
* `Describes.sameOutcome` says that the calls of a sequence decide its outcome.
-/

namespace WorkflowTree

variable {σ ε κ α β : Type}

/-! ### Running edits -/

theorem editAll_cons_eq_ok {edit : σ → ε → Except Problem σ} {s s' : σ} {e : ε} {es : List ε} :
    editAll edit s (e :: es) = .ok s' ↔ ∃ t, edit s e = .ok t ∧ editAll edit t es = .ok s' := by
  rw [editAll, List.foldlM_cons]
  rcases edit s e with p | t
  · simp [bind, Except.bind]
  · simp [bind, Except.bind, editAll]

/-- An edit that adds to a keyed part is made when the addition is. -/
theorem exists_addTo_eq_ok {r : Except Problem β} {f : β → σ} {P : σ → Prop} :
    (∃ t, (do return f (← r)) = Except.ok t ∧ P t) ↔ ∃ b, r = .ok b ∧ P (f b) := by
  rcases r with p | b <;> simp [bind, Except.bind, pure, Except.pure]

/-! ### Outcomes -/

/-- Two sequences of edits end alike: both make the same, or both are refused. -/
inductive SameOutcome : Except Problem σ → Except Problem σ → Prop
  | made (s : σ) : SameOutcome (.ok s) (.ok s)
  | refused (p q : Problem) : SameOutcome (.error p) (.error q)

theorem sameOutcome_of_ok_iff {r r' : Except Problem σ} (h : ∀ s, r = .ok s ↔ r' = .ok s) :
    SameOutcome r r' := by
  rcases r with p | s
  · rcases r' with q | s'
    · exact .refused p q
    · cases (h s').mpr rfl
  · obtain rfl := (h s).mp rfl
    exact .made s

/-- Some edit is refused. -/
def Refused (r : Except Problem σ) : Prop := ∃ p, r = .error p

theorem refused_iff {r : Except Problem σ} : Refused r ↔ ¬ ∃ s, r = .ok s := by
  cases r <;> simp [Refused]

/-! ### Descriptions of edits -/

/-- The calls of a sequence of edits decide what it makes, which a relation says.  There is a rule
for no edit and one for an edit before others. -/
structure Describes (edit : σ → ε → Except Problem σ) (calls : List ε → κ)
    (Edited : σ → κ → σ → Prop) : Prop where
  nil : ∀ s s', Edited s (calls []) s' ↔ s = s'
  cons : ∀ s e es s',
    Edited s (calls (e :: es)) s' ↔ ∃ t, edit s e = .ok t ∧ Edited t (calls es) s'

namespace Describes

variable {edit : σ → ε → Except Problem σ} {calls : List ε → κ} {Edited : σ → κ → σ → Prop}
variable {s s' : σ} {es es' : List ε}

theorem editAll_eq_ok (h : Describes edit calls Edited) :
    editAll edit s es = .ok s' ↔ Edited s (calls es) s' := by
  induction es generalizing s with
  | nil =>
    rw [h.nil]
    exact Except.ok.injEq s s' ▸ Iff.rfl
  | cons e es ih =>
    rw [editAll_cons_eq_ok, h.cons]
    simp only [ih]

theorem sameOutcome (h : Describes edit calls Edited) (hes : calls es = calls es') :
    SameOutcome (editAll edit s es) (editAll edit s es') := by
  apply sameOutcome_of_ok_iff
  intro s'
  rw [h.editAll_eq_ok, h.editAll_eq_ok, hes]

theorem refused_iff (h : Describes edit calls Edited) :
    Refused (editAll edit s es) ↔ ¬ ∃ s', Edited s (calls es) s' := by
  simp only [WorkflowTree.refused_iff, h.editAll_eq_ok]

end Describes

/-! ### Parts that keep the last value -/

/-- The last of the values, or what was there if there are none. -/
def lastOf (o : Option α) (as : List α) : Option α := as.getLast?.or o

@[simp] theorem lastOf_nil (o : Option α) : lastOf o [] = o := by
  rw [lastOf, List.getLast?_nil, Option.none_or]

@[simp] theorem lastOf_cons (o : Option α) (a : α) (as : List α) :
    lastOf o (a :: as) = lastOf (some a) as := by
  rw [lastOf, lastOf, List.getLast?_cons]
  cases as.getLast? <;> rfl

@[simp] theorem lastOf_toList (o : Option α) : lastOf none o.toList = o := by
  cases o <;> rfl

/-! ### Parts that keep named values -/

namespace Keyed

variable {name : α → Text} {m m' : Keyed α} {a : α} {as : List α}

/-- The values are added behind those of the collection, under their names. -/
def ExtendedBy (name : α → Text) (m : Keyed α) (as : List α) (m' : Keyed α) : Prop :=
  m'.entries = m.entries ++ as.map fun a => ((name a).value, a)

theorem extendedBy_nil : m.ExtendedBy name [] m' ↔ m = m' := by
  rw [ExtendedBy, List.map_nil, List.append_nil]
  exact ⟨fun h => (eq_of_entries h).symm, fun h => congrArg entries h.symm⟩

theorem extendedBy_cons {what : String} {definedAt : α → Position} :
    m.ExtendedBy name (a :: as) m' ↔
      ∃ t, m.addUnique what (name a) a definedAt = .ok t ∧ t.ExtendedBy name as m' := by
  have hassoc : ∀ es : List (String × α),
      m.entries ++ ((name a).value, a) :: es = (m.entries ++ [((name a).value, a)]) ++ es :=
    fun es => by rw [List.append_assoc, List.singleton_append]
  simp only [addUnique_eq_ok]
  constructor
  · intro h
    rw [ExtendedBy, List.map_cons, hassoc] at h
    -- the keys of the larger collection are distinct, so that the name was free
    have hfree : (name a).value ∉ m.keys := by
      intro hmem
      have hnodup := m'.nodup
      rw [h, List.map_append] at hnodup
      have hfirst := hnodup.of_append_left
      rw [List.map_append, List.nodup_append] at hfirst
      exact hfirst.2.2 _ hmem _ (List.mem_singleton_self _) rfl
    exact ⟨_, ⟨hfree, rfl⟩, by rw [ExtendedBy, entries_insert hfree, h]⟩
  · rintro ⟨_, ⟨hfree, rfl⟩, h⟩
    rw [ExtendedBy, entries_insert hfree] at h
    rw [ExtendedBy, List.map_cons, hassoc, h]

/-- Values can be added if no name is taken and none is given twice. -/
theorem exists_extendedBy_iff :
    (∃ m', m.ExtendedBy name as m') ↔ (m.keys ++ as.map fun a => (name a).value).Nodup := by
  have hkeys : (m.entries ++ as.map fun a => ((name a).value, a)).map Prod.fst =
      m.keys ++ as.map fun a => (name a).value := by
    rw [List.map_append, List.map_map]
    rfl
  constructor
  · rintro ⟨m', h⟩
    rw [← hkeys, ← h]
    exact m'.nodup
  · intro h
    exact ⟨⟨_, hkeys ▸ h⟩, rfl⟩

/-- Starting from nothing, a collection is the result of adding its values just if it stores them
under their own names. -/
theorem extendedBy_empty_values :
    empty.ExtendedBy name m.values m ↔ m.NamedBy fun a => (name a).value := by
  rw [namedBy_iff]
  rfl

theorem ExtendedBy.values_eq (h : empty.ExtendedBy name as m) : m.values = as := by
  rw [values, h]
  show (as.map _).map Prod.snd = as
  rw [List.map_map]
  exact List.map_id as

theorem ExtendedBy.namedBy (h : empty.ExtendedBy name as m) :
    m.NamedBy fun a => (name a).value :=
  extendedBy_empty_values.mp (h.values_eq.symm ▸ h)

end Keyed

/-- Two of these values have one name. -/
def NameTwice (name : α → Text) (as : List α) : Prop :=
  ∃ n, List.Duplicate n (as.map fun a => (name a).value)

theorem not_nameTwice_nil {name : α → Text} : ¬ NameTwice name [] := by
  rintro ⟨n, hn⟩
  cases hn

/-- Starting from nothing, values can be added if no two of them have one name. -/
theorem Keyed.exists_extendedBy_empty (name : α → Text) (as : List α) :
    (∃ m', Keyed.empty.ExtendedBy name as m') ↔ ¬ NameTwice name as := by
  rw [exists_extendedBy_iff, NameTwice, List.exists_duplicate_iff_not_nodup, not_not]
  rfl

end WorkflowTree
