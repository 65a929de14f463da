import WorkflowTree.Proofs.Acceptance.Workflow

/-!
# Passing over unknown keys

A lenient policy passes over keys that are not part of the syntax, a strict one reports them.
Nothing else is different: whatever is read, a lenient policy finds the problems that a strict one
finds, in the same order, but for those of unknown keys, and gives the same value.

`Checked.tolerate` takes the problems of unknown keys out of a checked value.  It goes through all
ways in which readers are put together, so each reader has a lemma that being lenient is being
strict and tolerating what was found.  Readers that are given no policy find no unknown keys, and
tolerating changes nothing of what they give.
-/

namespace WorkflowTree

variable {α β : Type}

/-! ### Strict and lenient policies -/

/-- The policy that reports unknown keys, and is the same otherwise. -/
def Policy.strict (policy : Policy) : Policy := { policy with allowUnknownKeys := false }

/-- The policy that passes over unknown keys, and is the same otherwise. -/
def Policy.lenient (policy : Policy) : Policy := { policy with allowUnknownKeys := true }

@[simp] theorem Policy.allowsWebhook_strict (policy : Policy) :
    policy.strict.allowsWebhook = policy.allowsWebhook := rfl

@[simp] theorem Policy.allowsWebhook_lenient (policy : Policy) :
    policy.lenient.allowsWebhook = policy.allowsWebhook := rfl

/-- The problem is that a key is unknown. -/
def Problem.isUnknownKey (p : Problem) : Bool := p.fault.code == "GHWF-005"

/-- Problems without those of unknown keys. -/
def Problem.tolerated (ps : List Problem) : List Problem := ps.filter fun p => !p.isUnknownKey

@[simp] theorem Problem.tolerated_append (ps qs : List Problem) :
    tolerated (ps ++ qs) = tolerated ps ++ tolerated qs := List.filter_append ..

@[simp] theorem Problem.tolerated_nil : tolerated [] = [] := rfl

namespace Checked

/-- A checked value without the problems of unknown keys. -/
def tolerate (c : Checked α) : Checked α := ⟨c.value, Problem.tolerated c.problems⟩

@[simp] theorem value_tolerate (c : Checked α) : c.tolerate.value = c.value := rfl

@[simp] theorem problems_tolerate (c : Checked α) :
    c.tolerate.problems = Problem.tolerated c.problems := rfl

@[simp] theorem tolerate_pure (a : α) : (pure a : Checked α).tolerate = pure a := rfl

@[simp] theorem tolerate_bind (c : Checked α) (f : α → Checked β) :
    (c >>= f).tolerate = c.tolerate >>= fun a => (f a).tolerate := by
  ext1
  · rfl
  · simp

@[simp] theorem tolerate_map (f : α → β) (c : Checked α) :
    (f <$> c).tolerate = f <$> c.tolerate := by
  ext1
  · rfl
  · simp

@[simp] theorem tolerate_andThen (c : Checked (Option α)) (k : α → Checked (Option β)) :
    (c.andThen k).tolerate = c.tolerate.andThen fun a => (k a).tolerate := by
  rcases e : c.value with - | a
  · rw [andThen_of_none e, andThen_of_none (c := c.tolerate) e]
    rfl
  · rw [andThen_of_some e, andThen_of_some (c := c.tolerate) e]
    simp [tolerate]

@[simp] theorem tolerate_collect (cs : List (Checked (Option α))) :
    (collect cs).tolerate = collect (cs.map tolerate) := by
  ext1
  · simp [List.filterMap_map, Function.comp_def]
  · simp [Problem.tolerated, List.filter_flatMap, List.flatMap_map]

/-- A problem of another kind is not tolerated. -/
theorem tolerate_refuse {fault : Fault} (h : (fault.code == "GHWF-005") = false)
    (pos : Position) : (refuse fault pos : Checked (Option α)).tolerate = refuse fault pos := by
  simp [refuse, tolerate, Problem.tolerated, Problem.isUnknownKey, h]

end Checked

open Checked

@[simp] theorem tolerate_mismatch (n : Node) (what expected : String) :
    (mismatch n what expected : Checked (Option α)).tolerate = mismatch n what expected :=
  tolerate_refuse rfl _

/-! ### Sections -/

@[simp] theorem Entry.tolerate_read (what : String) (kv : Node × Node) :
    (Entry.read what kv).tolerate = Entry.read what kv := by
  unfold Entry.read
  split
  · rfl
  · exact tolerate_mismatch _ _ _

@[simp] theorem Entry.tolerate_readAll (what : String) (n : Node) :
    (Entry.readAll what n).tolerate = Entry.readAll what n := by
  unfold Entry.readAll
  split
  · simp [List.map_map, Function.comp_def]
  · exact tolerate_mismatch _ _ _

namespace Section

@[simp] theorem tolerate_extend (what : String) (quiet : List String) (s : Section) (e : Entry) :
    (extend what quiet s e).tolerate = extend what quiet s e := by
  rcases h : s.find? e.key.value with - | first
  · rw [extend_of_none h, tolerate_pure]
  · rw [extend_of_some h]
    split <;> rfl

@[simp] theorem tolerate_distinct (what : String) (quiet : List String) (es : List Entry) :
    (distinct what quiet es).tolerate = distinct what quiet es := by
  unfold distinct
  generalize empty = s
  induction es generalizing s with
  | nil => rfl
  | cons e es ih => simp only [List.foldlM_cons, tolerate_bind, tolerate_extend, ih]

@[simp] theorem tolerate_within (what : String) (n : Node) (k : Section → Checked (Option α)) :
    (within what n k).tolerate = within what n fun s => (k s).tolerate := by
  simp only [within, read, tolerate_andThen, Entry.tolerate_readAll, tolerate_map,
    tolerate_distinct]

theorem tolerate_formConflict {what : String} {es : List Entry} {p : Problem}
    (h : formConflict? what es = some p) : (reportAll [p]).tolerate = reportAll [p] := by
  simp only [formConflict?, Option.bind_eq_bind, Option.bind_eq_some_iff] at h
  obtain ⟨_, _, _, _, _, _, hp⟩ := h
  obtain rfl := Option.some.inj hp
  rfl

@[simp] theorem tolerate_withinOwner (what : String) (n : Node)
    (k : Section → Checked (Option α)) :
    (withinOwner what n k).tolerate = withinOwner what n fun s => (k s).tolerate := by
  have hread : (readWithPermissions what n).tolerate = readWithPermissions what n := by
    rw [readWithPermissions, tolerate_andThen, Entry.tolerate_readAll]
    congr 1
    funext es
    rcases h : formConflict? what es with - | p
    · simp
    · simp [tolerate_formConflict h]
  rw [withinOwner, tolerate_andThen, hread]
  rfl

@[simp] theorem tolerate_collect (s : Section) (read : Entry → Checked (Option α)) :
    (s.collect read).tolerate = s.collect fun e => (read e).tolerate := by
  ext1
  · simp [collect, keyed, List.filterMap_map, Function.comp_def]
  · simp [collect, Problem.tolerated, List.filter_flatMap, List.flatMap_map]

@[simp] theorem tolerate_require (s : Section) (value : Option α) (key what : String)
    (pos : Position) :
    (s.require value key what pos).tolerate = s.require value key what pos := by
  unfold require
  split <;> rfl

end Section

/-! ### Forms -/

namespace Form

/-- What was read of known keys, without the problems of unknown ones inside of their values. -/
def tolerate (f : Form α) : Form α :=
  ⟨f.value, f.fields.map fun field => (field.1, Problem.tolerated field.2)⟩

@[simp] theorem tolerate_pure (a : α) : (pure a : Form α).tolerate = pure a := rfl

@[simp] theorem tolerate_bind (f : Form α) (k : α → Form β) :
    (f >>= k).tolerate = f.tolerate >>= fun a => (k a).tolerate := by
  show (⟨_, _⟩ : Form β) = ⟨_, _⟩
  simp [tolerate]

theorem lookup_fields_tolerate (f : Form α) (key : String) :
    f.tolerate.fields.lookup key = (f.fields.lookup key).map Problem.tolerated := by
  show (f.fields.map _).lookup key = _
  induction f.fields with
  | nil => rfl
  | cons field fields ih =>
    rw [List.map_cons, Keyed.lookup_cons, Keyed.lookup_cons, ih]
    split <;> rfl

end Form

namespace Section

@[simp] theorem tolerate_field (s : Section) (key : String) (read : Node → Checked (Option α)) :
    (s.field key read).tolerate = s.field key fun n => (read n).tolerate := by
  unfold field
  rcases s.get? key with - | n <;> rfl

@[simp] theorem tolerate_fieldWithKey (s : Section) (key : String)
    (read : Node → Checked (Option α)) :
    (s.fieldWithKey key read).tolerate = s.fieldWithKey key fun n => (read n).tolerate := by
  unfold fieldWithKey
  rcases s.find? key with - | e <;> rfl

/-- Unknown keys are met here: a strict policy reports them, and this is tolerated. -/
@[simp] theorem tolerate_fill (s : Section) (policy : Policy) (what : String) (form : Form α) :
    (s.fill policy.strict what form).tolerate = s.fill policy.lenient what form.tolerate := by
  have hentry : ∀ e, Problem.tolerated (entryProblems policy.strict what form e) =
      entryProblems policy.lenient what form.tolerate e := by
    intro e
    unfold entryProblems
    rw [Form.lookup_fields_tolerate]
    rcases form.fields.lookup e.key.value with - | ps <;> rfl
  ext1
  · rfl
  · show Problem.tolerated (s.entries.flatMap _) = s.entries.flatMap _
    rw [Problem.tolerated, List.filter_flatMap]
    exact congrArg s.entries.flatMap (funext hentry)

end Section

end WorkflowTree
