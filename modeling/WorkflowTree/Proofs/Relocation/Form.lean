import WorkflowTree.Proofs.Relocation.Relocated

/-!
# Forms of relocated sections

Filling a form with a section whose entries stand at other places reports the same problems at these
places, in the same order: the entries keep theirs.
-/

namespace WorkflowTree

open Checked

variable {α β γ δ : Type} {f : Relocation}

/-! ### Forms -/

/-- The values are related, and under each known key the problems are the same at other places. -/
structure Form.Relocated (f : Relocation) (R : α → β → Prop) (form : Form α) (form' : Form β) :
    Prop where
  value : R form.value form'.value
  fields : form'.fields = form.fields.map fun field => (field.1, relocate f field.2)

namespace Form

/-- The value and the problems are the same at other places. -/
def Moved [Placed α] (f : Relocation) (form form' : Form α) : Prop :=
  form.Relocated f (fun a b => b = relocate f a) form'

variable {R : α → β → Prop} {S : γ → δ → Prop} {form : Form α} {form' : Form β}

theorem Relocated.pure {a : α} {b : β} (h : R a b) : (pure a : Form α).Relocated f R (pure b) :=
  ⟨h, rfl⟩

theorem Relocated.bind {k : α → Form γ} {l : β → Form δ} (h : form.Relocated f R form')
    (hkl : ∀ a b, R a b → (k a).Relocated f S (l b)) :
    (form >>= k).Relocated f S (form' >>= l) := by
  have hrest := hkl form.value form'.value h.value
  refine ⟨hrest.value, ?_⟩
  rw [fields_bind, fields_bind, h.fields, hrest.fields, List.map_append]

theorem Relocated.keys (h : form.Relocated f R form') : form'.keys = form.keys := by
  unfold Form.keys
  rw [h.fields, List.map_map]
  rfl

theorem Relocated.lookup (h : form.Relocated f R form') (key : String) :
    form'.fields.lookup key = relocate f (form.fields.lookup key) := by
  rw [h.fields]
  generalize form.fields = fields
  induction fields with
  | nil => rfl
  | cons field fields ih =>
    rw [List.map_cons, Keyed.lookup_cons, Keyed.lookup_cons, ih]
    split <;> rfl

section Moved

variable [Placed α] {form form' : Form α}

/-- Going on with a value, and with the same one at other places. -/
theorem Moved.bind {k : α → Form γ} {l : α → Form δ} (h : form.Moved f form')
    (hkl : ∀ a, (k a).Relocated f S (l (relocate f a))) :
    (form >>= k).Relocated f S (form' >>= l) := by
  refine Relocated.bind h ?_
  rintro a _ rfl
  exact hkl a

end Moved

end Form

namespace Section

variable {policy : Policy} {what key : String}

/-- What a form says of an entry moves with the entry. -/
theorem entryProblems_relocate {R : α → β → Prop} {form : Form α} {form' : Form β}
    (h : form.Relocated f R form') (policy : Policy) (what : String) (e : Entry) :
    entryProblems policy what form' (relocate f e) =
      relocate f (entryProblems policy what form e) := by
  have hlookup : form'.fields.lookup (relocate f e).key.value =
      relocate f (form.fields.lookup e.key.value) := h.lookup e.key.value
  unfold entryProblems
  rw [hlookup, h.keys]
  rcases form.fields.lookup e.key.value with - | ps
  · show (if policy.allowUnknownKeys then _ else _) = relocate f (if policy.allowUnknownKeys then _
      else _)
    split <;> rfl
  · rfl

theorem relocated_fill {R : α → β → Prop} {form : Form α} {form' : Form β}
    (h : form.Relocated f R form') (s : Section) :
    (s.fill policy what form).Relocated f R ((relocate f s).fill policy what form') := by
  refine ⟨h.value, ?_⟩
  -- the problems come entry by entry, in the order of the file
  show (s.entries.map (relocate f)).flatMap _ = (s.entries.flatMap _).map _
  rw [List.flatMap_map, List.map_flatMap]
  congr 1
  funext e
  exact entryProblems_relocate h policy what e

section Moved

variable [Placed α] {read : Node → Checked (Option α)}

theorem moved_fill {form form' : Form α} (h : form.Moved f form') (s : Section) :
    (s.fill policy what form).Moved f ((relocate f s).fill policy what form') :=
  relocated_fill h s

theorem moved_require (value : Option α) (pos : Position) (s : Section) :
    (s.require value key what pos).Moved f
      ((relocate f s).require (relocate f value) key what (f pos)) := by
  have hnone : (relocate f value).isNone = value.isNone := Option.isNone_map ..
  refine ⟨rfl, ?_⟩
  unfold require
  dsimp only
  rw [hnone, has_relocate]
  split <;> rfl

theorem moved_field (h : ∀ v, (read v).Moved f (read (v.relocate f))) (s : Section) :
    (s.field key read).Moved f ((relocate f s).field key read) := by
  unfold field
  rw [get?_relocate]
  rcases s.get? key with - | v
  · exact ⟨rfl, rfl⟩
  · refine ⟨(h v).value, ?_⟩
    exact congrArg (fun ps => [(key, ps)]) (h v).problems

theorem moved_fieldWithKey (h : ∀ v, (read v).Moved f (read (v.relocate f))) (s : Section) :
    (s.fieldWithKey key read).Moved f ((relocate f s).fieldWithKey key read) := by
  unfold fieldWithKey
  rw [find?_relocate]
  rcases s.find? key with - | e
  · exact ⟨rfl, rfl⟩
  · have hvalue : (read (e.value.relocate f)).value = relocate f (read e.value).value :=
      (h e.value).value
    refine ⟨?_, congrArg (fun ps => [(key, ps)]) (h e.value).problems⟩
    show ((read (e.value.relocate f)).value.map fun a => (relocate f e.key, a)) =
      relocate f ((read e.value).value.map fun a => (e.key, a))
    rw [hvalue]
    rcases (read e.value).value with - | a <;> rfl

end Moved

end Section

end WorkflowTree
