import WorkflowTree.Proofs.Relocation.Form
import WorkflowTree.Reading.Container
import WorkflowTree.Reading.Strategy
import WorkflowTree.Reading.Trigger

/-!
# Reading parts of a relocated file

The readers of leaves, settings, containers, strategies and triggers do not depend on where a node
stands: each of them moves what it reads.
-/

namespace WorkflowTree

open Checked Section

variable {α β : Type} {policy : Policy} {what key owner : String}

/-! ### Leaves -/

theorem moved_readText (f : Relocation) (what : String) (n : Node) :
    (readText what n).Moved f (readText what (n.relocate f)) := by
  unfold readText
  rw [Node.leaf?_relocate]
  rcases n.leaf? with - | t
  · exact moved_mismatch f n _ _
  · exact moved_pure _

theorem moved_readPlain (f : Relocation) (read? : String → Option α) (expected what : String)
    (n : Node) :
    (readPlain read? expected what n).Moved f (readPlain read? expected what (n.relocate f)) := by
  unfold readPlain
  rw [Node.plain?_relocate, Node.pos_relocate]
  rcases n.plain?.bind read? with - | a
  · exact moved_mismatch f n _ _
  · exact moved_pure (some (⟨a, n.pos⟩ : Located α))

theorem moved_readFlag (f : Relocation) (what : String) (n : Node) :
    (readFlag what n).Moved f (readFlag what (n.relocate f)) := moved_readPlain f _ _ what n

theorem moved_readCount (f : Relocation) (what : String) (n : Node) :
    (readCount what n).Moved f (readCount what (n.relocate f)) := moved_readPlain f _ _ what n

theorem moved_readMinutes (f : Relocation) (what : String) (n : Node) :
    (readMinutes what n).Moved f (readMinutes what (n.relocate f)) := moved_readPlain f _ _ what n

/-- Items are read one by one. -/
theorem moved_items [Placed α] (f : Relocation) {read : Node → Checked (Option α)}
    (h : ∀ i, (read i).Moved f (read (i.relocate f))) (what expected : String) (n : Node) :
    (match n.items? with
      | some items => some <$> Checked.collect (items.map read)
      | none => mismatch n what expected : Checked (Option (List α))).Moved f
    (match (n.relocate f).items? with
      | some items => some <$> Checked.collect (items.map read)
      | none => mismatch (n.relocate f) what expected) := by
  rw [Node.items?_relocate]
  rcases n.items? with - | items
  · exact moved_mismatch f n _ _
  · exact (moved_collect h items).some

theorem moved_readTexts (f : Relocation) (what : String) (n : Node) :
    (readTexts what n).Moved f (readTexts what (n.relocate f)) :=
  moved_items f (moved_readText f _) _ _ n

/-- What is read as one text or as a list of texts. -/
theorem moved_textOrTexts (f : Relocation) (what expected : String) (n : Node) :
    (match n with
      | .scalar text _ pos => pure (some [⟨text, pos⟩])
      | .sequence _ _ => readTexts what n
      | _ => mismatch n what expected : Checked (Option (List Text))).Moved f
    (match n.relocate f with
      | .scalar text _ pos => pure (some [⟨text, pos⟩])
      | .sequence _ _ => readTexts what (n.relocate f)
      | _ => mismatch (n.relocate f) what expected) := by
  cases n with
  | null pos => exact moved_mismatch f (.null pos) _ _
  | scalar text plain pos => exact moved_pure (some [(⟨text, pos⟩ : Text)])
  | sequence items pos => exact moved_readTexts f what (.sequence items pos)
  | mapping entries pos => exact moved_mismatch f (.mapping entries pos) _ _

theorem moved_readTextOrTexts (f : Relocation) (what : String) (n : Node) :
    (readTextOrTexts what n).Moved f (readTextOrTexts what (n.relocate f)) :=
  moved_textOrTexts f what _ n

theorem Assignment.moved_read (f : Relocation) (what : String) (e : Entry) :
    (Assignment.read what e).Moved f (Assignment.read what (relocate f e)) :=
  (moved_readText f what e.value).optionMap fun _ => rfl

/-! ### Settings -/

theorem moved_readEnv (f : Relocation) (what : String) (n : Node) :
    (readEnv what n).Moved f (readEnv what (n.relocate f)) :=
  moved_free fun e => Assignment.moved_read f _ e

theorem Permissions.moved_readGrant (f : Relocation) (e : Entry) :
    (readGrant e).Moved f (readGrant (relocate f e)) := by
  unfold readGrant
  rw [Entry.value_relocate, Node.text?_relocate]
  rcases e.value.text?.bind Access.ofScopeWord? with - | access
  · exact moved_mismatch f e.value _ _
  · exact moved_pure (some (⟨some e.key, access, e.key.pos⟩ : Grant))

theorem Permissions.moved_read (f : Relocation) (owner : String) (n : Node) :
    (Permissions.read owner n).Moved f (Permissions.read owner (n.relocate f)) := by
  cases n with
  | null pos => exact moved_mismatch f (.null pos) _ _
  | sequence items pos => exact moved_mismatch f (.sequence items pos) _ _
  | mapping entries pos =>
    exact (moved_free (n := .mapping entries pos) (moved_readGrant f)).optionMap fun _ => rfl
  | scalar word plain pos =>
    simp only [Permissions.read, Node.relocate]
    rcases Access.ofBlanketWord? word with - | access
    · exact moved_mismatch f (.scalar word plain pos) _ _
    · exact moved_pure (some (all access pos))

theorem ScriptDefaults.moved_read (f : Relocation) (policy : Policy) (n : Node) :
    (ScriptDefaults.read policy n).Moved f (ScriptDefaults.read policy (n.relocate f)) := by
  unfold ScriptDefaults.read
  rw [Node.pos_relocate]
  refine moved_within fun s => (moved_fill ?_ s).some
  refine (moved_field (moved_readText f _) s).bind fun shell => ?_
  refine (moved_field (moved_readText f _) s).bind fun workingDirectory => ?_
  exact .pure rfl

theorem Defaults.moved_read (f : Relocation) (policy : Policy) (owner : String) (n : Node) :
    (Defaults.read policy owner n).Moved f (Defaults.read policy owner (n.relocate f)) := by
  unfold Defaults.read
  rw [Node.pos_relocate]
  refine moved_within fun s => (moved_fill ?_ s).some
  refine (moved_field (ScriptDefaults.moved_read f policy) s).bind fun run => ?_
  exact .pure rfl

/-- The short form of a mapping is a text, which stays one. -/
theorem moved_leafOr [Placed α] {f : Relocation} {n : Node} {short short' : Text → α}
    {c d : Checked (Option α)} (hshort : ∀ t, short' (relocate f t) = relocate f (short t))
    (h : c.Moved f d) :
    (match n.leaf? with
      | some t => pure (some (short t))
      | none => c : Checked (Option α)).Moved f
    (match (n.relocate f).leaf? with
      | some t => pure (some (short' t))
      | none => d) := by
  rw [Node.leaf?_relocate]
  rcases n.leaf? with - | t
  · exact h
  · exact .pure (congrArg some (hshort t))

theorem Concurrency.moved_read (f : Relocation) (policy : Policy) (owner : String) (n : Node) :
    (Concurrency.read policy owner n).Moved f (Concurrency.read policy owner (n.relocate f)) := by
  unfold Concurrency.read
  rw [Node.pos_relocate]
  refine moved_leafOr (fun _ => rfl) (moved_within fun s => ?_)
  refine Moved.bind (moved_fill ?_ s) fun fields => ?_
  · refine (moved_field (moved_readText f _) s).bind fun group => ?_
    refine (moved_field (moved_readFlag f _) s).bind fun cancelInProgress => ?_
    exact .pure rfl
  · obtain ⟨group, cancelInProgress⟩ := fields
    refine (moved_require group n.pos s).bind fun group => ?_
    exact .pure (by cases group <;> rfl)

theorem Environment.moved_read (f : Relocation) (policy : Policy) (what : String) (n : Node) :
    (Environment.read policy what n).Moved f (Environment.read policy what (n.relocate f)) := by
  unfold Environment.read
  rw [Node.pos_relocate]
  refine moved_leafOr (fun _ => rfl) (moved_within fun s => ?_)
  refine Moved.bind (moved_fill ?_ s) fun fields => ?_
  · refine (moved_field (moved_readText f _) s).bind fun name => ?_
    refine (moved_field (moved_readText f _) s).bind fun url => ?_
    exact .pure rfl
  · obtain ⟨name, url⟩ := fields
    refine (moved_require name n.pos s).bind fun name => ?_
    exact .pure (by cases name <;> rfl)

/-! ### Containers -/

theorem Credentials.moved_read (f : Relocation) (policy : Policy) (what : String) (n : Node) :
    (Credentials.read policy what n).Moved f (Credentials.read policy what (n.relocate f)) := by
  unfold Credentials.read
  rw [Node.pos_relocate]
  refine moved_within fun s => ?_
  refine Moved.bind (moved_fill ?_ s) fun fields => ?_
  · refine (moved_field (moved_readText f _) s).bind fun username => ?_
    refine (moved_field (moved_readText f _) s).bind fun password => ?_
    exact .pure rfl
  · obtain ⟨username, password⟩ := fields
    refine (moved_require username n.pos s).bind fun username => ?_
    refine (moved_require password n.pos s).bind fun password => ?_
    exact .pure (by cases username <;> cases password <;> rfl)

/-- The container that the other keys make of an image moves with the image. -/
theorem Container.relocated_readFields (f : Relocation) (policy : Policy) (what : String)
    (s : Section) (pos : Position) : (readFields policy what s pos).Relocated f
      (fun x y => y.1 = relocate f x.1 ∧ ∀ image, y.2 (relocate f image) = relocate f (x.2 image))
      (readFields policy what (relocate f s) (f pos)) := by
  refine (moved_field (moved_readText f _) s).bind fun image => ?_
  refine (moved_field (Credentials.moved_read f policy _) s).bind fun credentials => ?_
  refine (moved_field (moved_readEnv f _) s).bind fun env => ?_
  refine (moved_field (moved_readTexts f _) s).bind fun ports => ?_
  refine (moved_field (moved_readTexts f _) s).bind fun volumes => ?_
  refine (moved_field (moved_readText f _) s).bind fun options => ?_
  refine .pure ⟨rfl, fun image => ?_⟩
  cases env <;> cases ports <;> cases volumes <;> rfl

theorem Container.moved_read (f : Relocation) (policy : Policy) (what : String) (n : Node) :
    (Container.read policy what n).Moved f (Container.read policy what (n.relocate f)) := by
  unfold Container.read
  rw [Node.pos_relocate]
  refine moved_leafOr (fun _ => rfl) (moved_within fun s => ?_)
  refine Relocated.bind (relocated_fill (relocated_readFields f policy what s n.pos) s) ?_
  rintro ⟨image, complete⟩ ⟨_, complete'⟩ ⟨rfl, hcomplete⟩
  refine (moved_require image n.pos s).bind fun image => ?_
  refine .pure ?_
  rcases image with - | image
  · rfl
  · exact congrArg some (hcomplete image)

theorem moved_readServices (f : Relocation) (policy : Policy) (what : String) (n : Node) :
    (readServices policy what n).Moved f (readServices policy what (n.relocate f)) :=
  moved_free fun e => (Container.moved_read f policy _ e.value).optionMap fun _ => rfl

/-! ### Strategies -/

namespace Matrix

instance : Placed Part where
  relocate
    | f, .row r => .row (relocate f r)
    | f, .combinations cs => .combinations (relocate f cs)

theorem moved_readCombination (f : Relocation) (what : String) (n : Node) :
    (readCombination what n).Moved f (readCombination what (n.relocate f)) :=
  moved_free fun e => Assignment.moved_read f _ e

theorem moved_readCombinations (f : Relocation) (key : String) (n : Node) :
    (readCombinations key n).Moved f (readCombinations key (n.relocate f)) :=
  moved_items f (moved_readCombination f _) _ _ n

theorem moved_readRow (f : Relocation) (e : Entry) :
    (readRow e).Moved f (readRow (relocate f e)) :=
  (moved_readTexts f _ e.value).optionMap fun _ => rfl

theorem moved_readPart (f : Relocation) (e : Entry) :
    (readPart e).Moved f (readPart (relocate f e)) := by
  have hkey : (relocate f e).key.value = e.key.value := rfl
  unfold readPart
  rw [hkey]
  split
  · exact (moved_readCombinations f _ e.value).optionMap fun _ => rfl
  · exact (moved_readRow f e).optionMap fun _ => rfl

theorem ofParts_relocate (f : Relocation) (parts : Keyed Part) (pos : Position) :
    ofParts (relocate f parts) (f pos) = relocate f (ofParts parts pos) := by
  have hrows : (relocate f parts).filterMap (fun _ p => p.row?) =
      relocate f (parts.filterMap fun _ p => p.row?) := by
    refine Keyed.filterMap_relocate f parts fun _ p => ?_
    cases p <;> rfl
  have hruns : ∀ key, (((relocate f parts).find? key).map Part.runs).getD [] =
      relocate f (((parts.find? key).map Part.runs).getD []) := by
    intro key
    rw [Keyed.find?_relocate]
    rcases parts.find? key with - | (r | cs) <;> rfl
  unfold ofParts
  rw [hrows, hruns, hruns]
  rfl

theorem moved_read (f : Relocation) (n : Node) :
    (Matrix.read n).Moved f (Matrix.read (n.relocate f)) := by
  have hparts : (readParts n).Moved f (readParts (n.relocate f)) := moved_free (moved_readPart f)
  unfold Matrix.read
  rw [Node.pos_relocate]
  exact hparts.optionMap fun parts => ofParts_relocate f parts n.pos

end Matrix

theorem Strategy.moved_read (f : Relocation) (policy : Policy) (what : String) (n : Node) :
    (Strategy.read policy what n).Moved f (Strategy.read policy what (n.relocate f)) := by
  unfold Strategy.read
  rw [Node.pos_relocate]
  refine moved_within fun s => (moved_fill ?_ s).some
  refine (moved_field (Matrix.moved_read f) s).bind fun matrix => ?_
  refine (moved_field (moved_readFlag f _) s).bind fun failFast => ?_
  refine (moved_field (moved_readCount f _) s).bind fun maxParallel => ?_
  exact .pure rfl

/-! ### Triggers -/

theorem moved_withinBody [Placed α] {f : Relocation} {body : Option Node}
    {k l : Section → Checked (Option α)} (h : ∀ s, (k s).Moved f (l (relocate f s))) :
    (withinBody what body k).Moved f (withinBody what (relocate f body) l) := by
  have hbody : (relocate f body).filter (fun n => !n.isNull) =
      relocate f (body.filter fun n => !n.isNull) := by
    rcases body with - | n
    · rfl
    · have hnull : (n.relocate f).isNull = n.isNull := Node.isNull_relocate f n
      show (some (n.relocate f)).filter _ = _
      simp only [Option.filter, hnull]
      split <;> rfl
  unfold withinBody
  rw [hbody]
  generalize body.filter (fun n => !n.isNull) = body
  rcases body with - | n
  · exact h .empty
  · exact moved_within h

theorem WebhookTrigger.moved_read (f : Relocation) (policy : Policy) (hook : Text)
    (body : Option Node) : (WebhookTrigger.read policy hook body).Moved f
      (WebhookTrigger.read policy (relocate f hook) (relocate f body)) := by
  unfold WebhookTrigger.read
  refine moved_withinBody fun s => (moved_fill ?_ s).some
  refine (moved_field (moved_readTextOrTexts f _) s).bind fun types => ?_
  refine (moved_field (moved_readTextOrTexts f _) s).bind fun branches => ?_
  refine (moved_field (moved_readTextOrTexts f _) s).bind fun branchesIgnore => ?_
  refine (moved_field (moved_readTextOrTexts f _) s).bind fun tags => ?_
  refine (moved_field (moved_readTextOrTexts f _) s).bind fun tagsIgnore => ?_
  refine (moved_field (moved_readTextOrTexts f _) s).bind fun paths => ?_
  refine (moved_field (moved_readTextOrTexts f _) s).bind fun pathsIgnore => ?_
  refine (moved_field (moved_readTextOrTexts f _) s).bind fun workflows => ?_
  exact .pure rfl

namespace ScheduleTrigger

theorem moved_readTime (f : Relocation) (policy : Policy) (n : Node) :
    (readTime policy n).Moved f (readTime policy (n.relocate f)) := by
  unfold readTime
  rw [Node.pos_relocate]
  refine moved_within fun s => ?_
  refine Moved.bind (moved_fill (moved_field (moved_readText f _) s) s) fun cron => ?_
  exact moved_require cron n.pos s

theorem moved_read (f : Relocation) (policy : Policy) (pos : Position) (body : Option Node) :
    (ScheduleTrigger.read policy pos body).Moved f
      (ScheduleTrigger.read policy (f pos) (relocate f body)) := by
  unfold ScheduleTrigger.read
  rcases body with - | n
  · exact moved_refuse f _ pos
  · show (match n.items? with | some _ => _ | none => _ : Checked _).Moved f
      (match (n.relocate f).items? with | some _ => _ | none => _)
    rw [Node.items?_relocate]
    rcases n.items? with - | items
    · exact moved_mismatch f n _ _
    · refine Moved.bind (moved_collect (moved_readTime f policy) items) fun cron => ?_
      exact .pure rfl

end ScheduleTrigger

theorem DispatchInput.moved_read (f : Relocation) (policy : Policy) (e : Entry) :
    (DispatchInput.read policy e).Moved f (DispatchInput.read policy (relocate f e)) := by
  unfold DispatchInput.read
  refine moved_withinBody fun s => (moved_fill ?_ s).some
  refine (moved_field (moved_readText f _) s).bind fun description => ?_
  refine (moved_field (moved_readFlag f _) s).bind fun required => ?_
  refine (moved_field (moved_readText f _) s).bind fun fallback => ?_
  refine (moved_field (moved_readText f _) s).bind fun type => ?_
  refine (moved_field (moved_readTexts f _) s).bind fun options => ?_
  exact .pure rfl

theorem WorkflowDispatch.moved_read (f : Relocation) (policy : Policy) (pos : Position)
    (body : Option Node) : (WorkflowDispatch.read policy pos body).Moved f
      (WorkflowDispatch.read policy (f pos) (relocate f body)) := by
  have hinputs : ∀ n : Node, (readInputs policy n).Moved f (readInputs policy (n.relocate f)) :=
    fun n => moved_free (DispatchInput.moved_read f policy)
  unfold WorkflowDispatch.read
  refine moved_withinBody fun s => (moved_fill ?_ s).some
  refine (moved_field hinputs s).bind fun inputs => ?_
  exact .pure (by cases inputs <;> rfl)

theorem RepositoryDispatch.moved_read (f : Relocation) (policy : Policy) (pos : Position)
    (body : Option Node) : (RepositoryDispatch.read policy pos body).Moved f
      (RepositoryDispatch.read policy (f pos) (relocate f body)) := by
  unfold RepositoryDispatch.read
  refine moved_withinBody fun s => (moved_fill ?_ s).some
  refine (moved_field (moved_readTextOrTexts f _) s).bind fun types => ?_
  exact .pure rfl

namespace Trigger

theorem moved_read (f : Relocation) (policy : Policy) (hook : Text) (body : Option Node) :
    (Trigger.read policy hook body).Moved f
      (Trigger.read policy (relocate f hook) (relocate f body)) := by
  have hname : (relocate f hook).value = hook.value := rfl
  have hpos : (relocate f hook).pos = f hook.pos := rfl
  unfold Trigger.read
  rw [hname, hpos]
  split
  · exact (ScheduleTrigger.moved_read f policy hook.pos body).optionMap fun _ => rfl
  · split
    · exact (WorkflowDispatch.moved_read f policy hook.pos body).optionMap fun _ => rfl
    · split
      · exact (RepositoryDispatch.moved_read f policy hook.pos body).optionMap fun _ => rfl
      · split
        · exact (WebhookTrigger.moved_read f policy hook body).optionMap fun _ => rfl
        · exact moved_refuse f _ hook.pos

theorem moved_readItem (f : Relocation) (policy : Policy) (n : Node) :
    (readItem policy n).Moved f (readItem policy (n.relocate f)) := by
  unfold readItem
  rw [Node.leaf?_relocate]
  rcases n.leaf? with - | hook
  · exact moved_mismatch f n _ _
  · exact moved_read f policy hook none

/-- The triggers stand in the order of the entries, which is kept. -/
theorem moved_readList (f : Relocation) (policy : Policy) (n : Node) :
    (readList policy n).Moved f (readList policy (n.relocate f)) := by
  have hbodies : ∀ m : Node, (within listWhat m fun s => some <$> Checked.collect
        (s.entries.map fun e => read policy e.key (some e.value))).Moved f
      (within listWhat (m.relocate f) fun s => some <$> Checked.collect
        (s.entries.map fun e => read policy e.key (some e.value))) := by
    intro m
    refine moved_within fun s => Moved.some ?_
    exact moved_collect (fun e => moved_read f policy e.key (some e.value)) s.entries
  cases n with
  | null pos => exact hbodies (.null pos)
  | mapping entries pos => exact hbodies (.mapping entries pos)
  | scalar text plain pos =>
    exact (moved_read f policy ⟨text, pos⟩ none).optionMap fun _ => rfl
  | sequence items pos =>
    simp only [readList, Node.relocate, Node.relocateItems_eq]
    exact (moved_collect (moved_readItem f policy) items).some

end Trigger

end WorkflowTree
