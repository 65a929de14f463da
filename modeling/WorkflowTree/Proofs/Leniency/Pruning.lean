import WorkflowTree.Proofs.Leniency.Readers
import WorkflowTree.Proofs.Leniency.Selection

/-!
# Strict readers of pruned nodes

Reader by reader, from the leaves to the whole workflow: reading a pruned node strictly is no worse
than reading the node leniently.  Readers that are given no policy read what was not pruned, and
need no lemma.
-/

namespace WorkflowTree

open Checked Node Section

variable {α : Type} (policy : Policy)

/-! ### Settings -/

theorem ScriptDefaults.noWorse_read (n : Node) :
    (read policy.strict (prune n)).NoWorse (read policy.lenient n) := by
  simp only [read, prune, pruneFixed, pos_select]
  refine noWorse_within fun s => (noWorse_fill (by simp [Form.keys]) ?_).map some
  refine .bind (noWorse_field rfl fun _ => .refl _) fun shell => ?_
  refine .bind (noWorse_field rfl fun _ => .refl _) fun workingDirectory => ?_
  exact .pure _

theorem Defaults.noWorse_read (owner : String) (n : Node) :
    (read policy.strict owner (prune n)).NoWorse (read policy.lenient owner n) := by
  simp only [read, prune, pruneFixed, pos_select]
  refine noWorse_within fun s => (noWorse_fill (by simp [Form.keys]) ?_).map some
  refine .bind (noWorse_field rfl (ScriptDefaults.noWorse_read policy)) fun run => ?_
  exact .pure _

/-- A text stays as it is, and so does what a text stands for. -/
theorem noWorse_leafOr {f : String → Option (Node → Node)} {n : Node} {short : Text → α}
    {c d : Checked (Option α)} (h : c.NoWorse d) :
    (match (n.select f).leaf? with
      | some t => pure (some (short t))
      | none => c : Checked (Option α)).NoWorse
    (match n.leaf? with
      | some t => pure (some (short t))
      | none => d : Checked (Option α)) := by
  rw [leaf?_select]
  rcases n.leaf? with - | t
  · exact h
  · exact .refl _

theorem Concurrency.noWorse_read (owner : String) (n : Node) :
    (read policy.strict owner (prune n)).NoWorse (read policy.lenient owner n) := by
  simp only [read, prune, pruneFixed, pos_select]
  refine noWorse_leafOr (noWorse_within fun s => ?_)
  refine (noWorse_fill (by simp [Form.keys]) ?_).bind ?_
  · refine .bind (noWorse_field rfl fun _ => .refl _) fun group => ?_
    refine .bind (noWorse_field rfl fun _ => .refl _) fun cancelInProgress => ?_
    exact .pure _
  · rintro ⟨group, cancelInProgress⟩
    rw [require_select rfl]
    exact .refl _

theorem Environment.noWorse_read (what : String) (n : Node) :
    (read policy.strict what (prune n)).NoWorse (read policy.lenient what n) := by
  simp only [read, prune, pruneFixed, pos_select]
  refine noWorse_leafOr (noWorse_within fun s => ?_)
  refine (noWorse_fill (by simp [Form.keys]) ?_).bind ?_
  · refine .bind (noWorse_field rfl fun _ => .refl _) fun name => ?_
    refine .bind (noWorse_field rfl fun _ => .refl _) fun url => ?_
    exact .pure _
  · rintro ⟨name, url⟩
    rw [require_select rfl]
    exact .refl _

theorem Credentials.noWorse_read (what : String) (n : Node) :
    (read policy.strict what (prune n)).NoWorse (read policy.lenient what n) := by
  simp only [read, prune, pruneFixed, pos_select]
  refine noWorse_within fun s => ?_
  refine (noWorse_fill (by simp [Form.keys]) ?_).bind ?_
  · refine .bind (noWorse_field rfl fun _ => .refl _) fun username => ?_
    refine .bind (noWorse_field rfl fun _ => .refl _) fun password => ?_
    exact .pure _
  · rintro ⟨username, password⟩
    rw [require_select rfl, require_select rfl]
    exact .refl _

theorem Container.noWorse_readFields (what : String) (s : Section) (pos : Position) :
    (readFields policy.strict what (s.select kept) pos).NoWorse
      (readFields policy.lenient what s pos) := by
  refine .bind (noWorse_field rfl fun _ => .refl _) fun image => ?_
  refine .bind (noWorse_field rfl (Credentials.noWorse_read policy _)) fun credentials => ?_
  refine .bind (noWorse_field rfl fun _ => .refl _) fun env => ?_
  refine .bind (noWorse_field rfl fun _ => .refl _) fun ports => ?_
  refine .bind (noWorse_field rfl fun _ => .refl _) fun volumes => ?_
  refine .bind (noWorse_field rfl fun _ => .refl _) fun options => ?_
  exact .pure _

theorem Container.noWorse_read (what : String) (n : Node) :
    (read policy.strict what (prune n)).NoWorse (read policy.lenient what n) := by
  simp only [read, prune, pos_select]
  refine noWorse_leafOr (noWorse_within fun s => ?_)
  refine (noWorse_fill (by simp [readFields, Form.keys])
    (noWorse_readFields policy what s n.pos)).bind ?_
  rintro ⟨image, complete⟩
  rw [require_select rfl]
  exact .refl _

theorem noWorse_readServices (what : String) (n : Node) :
    (readServices policy.strict what (pruneServices n)).NoWorse
      (readServices policy.lenient what n) := by
  refine noWorse_within fun s => (noWorse_collect fun e => ?_).map some
  exact (Container.noWorse_read policy _ e.value).map _

theorem Strategy.noWorse_read (what : String) (n : Node) :
    (read policy.strict what (prune n)).NoWorse (read policy.lenient what n) := by
  simp only [read, prune, pruneFixed, pos_select]
  refine noWorse_within fun s => (noWorse_fill (by simp [Form.keys]) ?_).map some
  refine .bind (noWorse_field rfl fun _ => .refl _) fun matrix => ?_
  refine .bind (noWorse_field rfl fun _ => .refl _) fun failFast => ?_
  refine .bind (noWorse_field rfl fun _ => .refl _) fun maxParallel => ?_
  exact .pure _

/-! ### Triggers -/

/-- Without a mapping there is nothing to prune, and no value stays no value. -/
theorem noWorse_withinBody {what : String} {f : String → Option (Node → Node)}
    (body : Option Node) {k k' : Section → Checked (Option α)}
    (h : ∀ s, (k (s.select f)).NoWorse (k' s)) :
    (withinBody what (body.map (select f)) k).NoWorse (withinBody what body k') := by
  rcases body with - | n
  · exact h .empty
  · rcases e : n.isNull with - | -
    · simp only [withinBody, Option.map_some, Option.filter_some, isNull_select, e]
      exact noWorse_within h
    · simp only [withinBody, Option.map_some, Option.filter_some, isNull_select, e]
      exact h .empty

theorem WebhookTrigger.noWorse_read (hook : Text) (body : Option Node) :
    (read policy.strict hook (body.map prune)).NoWorse (read policy.lenient hook body) := by
  simp only [read, prune, pruneFixed]
  refine noWorse_withinBody body fun s => (noWorse_fill (by simp [Form.keys]) ?_).map some
  refine .bind (noWorse_field rfl fun _ => .refl _) fun types => ?_
  refine .bind (noWorse_field rfl fun _ => .refl _) fun branches => ?_
  refine .bind (noWorse_field rfl fun _ => .refl _) fun branchesIgnore => ?_
  refine .bind (noWorse_field rfl fun _ => .refl _) fun tags => ?_
  refine .bind (noWorse_field rfl fun _ => .refl _) fun tagsIgnore => ?_
  refine .bind (noWorse_field rfl fun _ => .refl _) fun paths => ?_
  refine .bind (noWorse_field rfl fun _ => .refl _) fun pathsIgnore => ?_
  refine .bind (noWorse_field rfl fun _ => .refl _) fun workflows => ?_
  exact .pure _

theorem ScheduleTrigger.noWorse_readTime (n : Node) :
    (readTime policy.strict (pruneTime n)).NoWorse (readTime policy.lenient n) := by
  simp only [readTime, pruneTime, pruneFixed, pos_select]
  refine noWorse_within fun s => ?_
  refine (noWorse_fill (by simp [Form.keys]) (noWorse_field rfl fun _ => .refl _)).bind
    fun cron => ?_
  rw [require_select rfl]
  exact .refl _

theorem ScheduleTrigger.noWorse_read (pos : Position) (body : Option Node) :
    (read policy.strict pos (body.map prune)).NoWorse (read policy.lenient pos body) := by
  rcases body with - | n
  · exact .refl _
  · simp only [read, prune, Option.map_some, items?_pruneItems, mismatch_pruneItems]
    rcases n.items? with - | items
    · exact .refl _
    · simp only [Option.map_some, List.map_map]
      exact (NoWorse.collect (noWorse_readTime policy)).map _

theorem DispatchInput.noWorse_read (e : Entry) :
    (read policy.strict ⟨e.key, prune e.value⟩).NoWorse (read policy.lenient e) := by
  simp only [read, prune, pruneFixed]
  refine noWorse_withinBody (some e.value) fun s => NoWorse.map ?_ some
  refine noWorse_fill (by simp [Form.keys]) ?_
  refine .bind (noWorse_field rfl fun _ => .refl _) fun description => ?_
  refine .bind (noWorse_field rfl fun _ => .refl _) fun required => ?_
  refine .bind (noWorse_field rfl fun _ => .refl _) fun fallback => ?_
  refine .bind (noWorse_field rfl fun _ => .refl _) fun type => ?_
  refine .bind (noWorse_field rfl fun _ => .refl _) fun options => ?_
  exact .pure _

theorem WorkflowDispatch.noWorse_readInputs (n : Node) :
    (readInputs policy.strict (pruneFree (fun _ => DispatchInput.prune) n)).NoWorse
      (readInputs policy.lenient n) :=
  noWorse_within fun _ => (noWorse_collect (DispatchInput.noWorse_read policy)).map some

theorem WorkflowDispatch.noWorse_read (pos : Position) (body : Option Node) :
    (read policy.strict pos (body.map prune)).NoWorse (read policy.lenient pos body) := by
  simp only [read, prune, pruneFixed]
  refine noWorse_withinBody body fun s => (noWorse_fill (by simp [Form.keys]) ?_).map some
  refine .bind (noWorse_field rfl (noWorse_readInputs policy)) fun inputs => ?_
  exact .pure _

theorem RepositoryDispatch.noWorse_read (pos : Position) (body : Option Node) :
    (read policy.strict pos (body.map prune)).NoWorse (read policy.lenient pos body) := by
  simp only [read, prune, pruneFixed]
  refine noWorse_withinBody body fun s => (noWorse_fill (by simp [Form.keys]) ?_).map some
  refine .bind (noWorse_field rfl fun _ => .refl _) fun types => ?_
  exact .pure _

theorem Trigger.noWorse_read (hook : Text) (body : Option Node) :
    (read policy.strict hook (body.map (prune hook.value))).NoWorse
      (read policy.lenient hook body) := by
  unfold read prune
  rw [Policy.allowsWebhook_strict, Policy.allowsWebhook_lenient]
  split
  · exact (ScheduleTrigger.noWorse_read policy _ _).map _
  split
  · exact (WorkflowDispatch.noWorse_read policy _ _).map _
  split
  · exact (RepositoryDispatch.noWorse_read policy _ _).map _
  split
  · exact (WebhookTrigger.noWorse_read policy _ _).map _
  · exact .refl _

theorem Trigger.noWorse_readItem (n : Node) :
    (readItem policy.strict n).NoWorse (readItem policy.lenient n) := by
  unfold readItem
  split
  · exact noWorse_read policy _ none
  · exact .refl _

theorem Trigger.noWorse_readList (n : Node) :
    (readList policy.strict (pruneList n)).NoWorse (readList policy.lenient n) := by
  have hbodies : (within listWhat (pruneList n) fun s => some <$>
        collect (s.entries.map fun e => read policy.strict e.key (some e.value))).NoWorse
      (within listWhat n fun s => some <$>
        collect (s.entries.map fun e => read policy.lenient e.key (some e.value))) := by
    refine noWorse_within fun s => NoWorse.map ?_ some
    rw [entries_select_free, List.map_map]
    exact NoWorse.collect fun e => noWorse_read policy e.key (some e.value)
  rcases n with pos | ⟨text, plain, pos⟩ | ⟨items, pos⟩ | ⟨entries, pos⟩
  · exact hbodies
  · exact (noWorse_read policy _ none).map _
  · exact (NoWorse.collect (noWorse_readItem policy)).map some
  · exact hbodies

/-! ### Jobs -/

theorem Step.noWorse_readFields (what : String) (s : Section) (pos : Position) :
    (readFields what (s.select kept) pos).NoWorse (readFields what s pos) := by
  refine .bind (noWorse_field rfl fun _ => .refl _) fun id => ?_
  refine .bind (noWorse_field rfl fun _ => .refl _) fun condition => ?_
  refine .bind (noWorse_field rfl fun _ => .refl _) fun name => ?_
  refine .bind (noWorse_fieldWithKey rfl fun _ => .refl _) fun run => ?_
  refine .bind (noWorse_fieldWithKey rfl fun _ => .refl _) fun uses => ?_
  refine .bind (noWorse_fieldWithKey rfl fun _ => .refl _) fun inputs => ?_
  refine .bind (noWorse_fieldWithKey rfl fun _ => .refl _) fun shell => ?_
  refine .bind (noWorse_fieldWithKey rfl fun _ => .refl _) fun workingDirectory => ?_
  refine .bind (noWorse_field rfl fun _ => .refl _) fun env => ?_
  refine .bind (noWorse_field rfl fun _ => .refl _) fun continueOnError => ?_
  refine .bind (noWorse_field rfl fun _ => .refl _) fun timeout => ?_
  exact .pure _

theorem Step.noWorse_read (what : String) (n : Node) :
    (read policy.strict what (prune n)).NoWorse (read policy.lenient what n) := by
  simp only [read, prune, pos_select]
  refine noWorse_within fun s => ?_
  refine (noWorse_fill (by simp [readFields, Form.keys])
    (noWorse_readFields what s n.pos)).bind ?_
  rintro ⟨fields, complete⟩
  rw [readExec, has_select_of_some rfl, has_select_of_some rfl]
  exact .refl _

theorem Step.noWorse_readList (owner : String) (n : Node) :
    (readList policy.strict owner (pruneItems prune n)).NoWorse
      (readList policy.lenient owner n) := by
  simp only [readList, items?_pruneItems, mismatch_pruneItems]
  rcases n.items? with - | items
  · exact .refl _
  · simp only [Option.map_some, List.zipIdx_map, List.map_map]
    have hstep : ∀ k : Node × Nat, (read policy.strict s!"step {k.2 + 1} of {owner}"
        (prune k.1)).NoWorse (read policy.lenient s!"step {k.2 + 1} of {owner}" k.1) :=
      fun k => noWorse_read policy _ k.1
    exact (NoWorse.collect hstep).map some

theorem Job.noWorse_readFields (what : String) (id : Text) (s : Section) :
    (readFields policy.strict what id (s.select kept)).NoWorse
      (readFields policy.lenient what id s) := by
  refine .bind (noWorse_field rfl fun _ => .refl _) fun name => ?_
  refine .bind (noWorse_field rfl fun _ => .refl _) fun needs => ?_
  refine .bind (noWorse_field rfl fun _ => .refl _) fun runsOn => ?_
  refine .bind (noWorse_field rfl fun _ => .refl _) fun permissions => ?_
  refine .bind (noWorse_field rfl (Environment.noWorse_read policy _)) fun environment => ?_
  refine .bind (noWorse_field rfl (Concurrency.noWorse_read policy _)) fun concurrency => ?_
  refine .bind (noWorse_field rfl fun _ => .refl _) fun outputs => ?_
  refine .bind (noWorse_field rfl fun _ => .refl _) fun env => ?_
  refine .bind (noWorse_field rfl (Defaults.noWorse_read policy _)) fun defaults => ?_
  refine .bind (noWorse_field rfl fun _ => .refl _) fun condition => ?_
  refine .bind (noWorse_field rfl (Step.noWorse_readList policy _)) fun steps => ?_
  refine .bind (noWorse_field rfl fun _ => .refl _) fun timeout => ?_
  refine .bind (noWorse_field rfl (Strategy.noWorse_read policy _)) fun strategy => ?_
  refine .bind (noWorse_field rfl fun _ => .refl _) fun continueOnError => ?_
  refine .bind (noWorse_field rfl (Container.noWorse_read policy _)) fun container => ?_
  refine .bind (noWorse_field rfl (noWorse_readServices policy _)) fun services => ?_
  exact .pure _

theorem Job.noWorse_read (id : Text) (n : Node) :
    (read policy.strict id (prune n)).NoWorse (read policy.lenient id n) := by
  simp only [read, prune]
  refine noWorse_withinOwner rfl fun s => ?_
  refine (noWorse_fill (by simp [readFields, Form.keys, permissionsKey])
    (noWorse_readFields policy _ id s)).bind ?_
  rintro ⟨runsOn, steps, complete⟩
  rw [require_select rfl, require_select rfl]
  exact .refl _

theorem Job.noWorse_readAll (n : Node) :
    (readAll policy.strict (pruneFree (fun _ => prune) n)).NoWorse
      (readAll policy.lenient n) :=
  noWorse_within fun _ => (noWorse_collect fun e => noWorse_read policy e.key e.value).map some

/-! ### Workflows -/

theorem Workflow.noWorse_readFields (what : String) (s : Section) :
    (readFields policy.strict what (s.select kept)).NoWorse
      (readFields policy.lenient what s) := by
  refine .bind (noWorse_field rfl fun _ => .refl _) fun name => ?_
  refine .bind (noWorse_field rfl fun _ => .refl _) fun runName => ?_
  refine .bind (noWorse_field rfl (Trigger.noWorse_readList policy)) fun triggers => ?_
  refine .bind (noWorse_field rfl fun _ => .refl _) fun permissions => ?_
  refine .bind (noWorse_field rfl fun _ => .refl _) fun env => ?_
  refine .bind (noWorse_field rfl (Defaults.noWorse_read policy _)) fun defaults => ?_
  refine .bind (noWorse_field rfl (Concurrency.noWorse_read policy _)) fun concurrency => ?_
  refine .bind (noWorse_field rfl (Job.noWorse_readAll policy)) fun jobs => ?_
  exact .pure _

theorem Workflow.noWorse_read (root : Node) :
    (read policy.strict (prune root)).NoWorse (read policy.lenient root) := by
  simp only [read, prune, pos_select]
  refine noWorse_withinOwner rfl fun s => ?_
  refine (noWorse_fill (by simp [readFields, Form.keys, permissionsKey])
    (noWorse_readFields policy _ s)).bind ?_
  rintro ⟨triggers, jobs, complete⟩
  rw [require_select rfl, require_select rfl]
  exact .refl _

end WorkflowTree
