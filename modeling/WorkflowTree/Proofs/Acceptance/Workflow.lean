import WorkflowTree.Proofs.Acceptance.Job
import WorkflowTree.Proofs.Acceptance.Trigger
import WorkflowTree.Reading.Workflow

/-!
# What the reader of workflows accepts

The main statement is `Workflow.exists_parse_eq_ok`: a node is accepted exactly if it is a
workflow in the sense of the grammar.  Both directions come from the same two facts about the
reader: it finds nothing wrong exactly in workflows (`Workflow.clean_read`), and where it finds
nothing wrong it gives a workflow (`Workflow.explained_read`).
-/

namespace WorkflowTree.Workflow

open Checked

theorem nodup_readFields (policy : Policy) (what : String) (s : Section) :
    (readFields policy what s).keys.Nodup := by
  simp [readFields, Form.keys, Section.permissionsKey]

/-- The required keys of a workflow are two fields of its form; what the other keys give only
serves to complete the workflow. -/
theorem exists_value_readFields (policy : Policy) (what : String) (s : Section) :
    ∃ complete, (readFields policy what s).value =
        ((s.field "on" (Trigger.readList policy)).value,
          (s.field "jobs" (Job.readAll policy)).value, complete) ∧
      ("on", s.problemsAt "on" (Trigger.readList policy)) ∈ (readFields policy what s).fields ∧
      ("jobs", s.problemsAt "jobs" (Job.readAll policy)) ∈ (readFields policy what s).fields :=
  ⟨_, rfl, by simp [readFields], by simp [readFields]⟩

theorem clean_fill_readFields {policy : Policy} {what : String} {root : Node} {s : Section}
    (hn : root.IsSection) (hs : ∀ key, s.get? key = root.get? key) :
    (s.fill policy what (readFields policy what s)).Clean ↔
      root.IsFixed policy ["name", "run-name", "on", "permissions", "env", "defaults",
        "concurrency", "jobs"] ∧
      root.Allows "name" Node.IsText ∧ root.Allows "run-name" Node.IsText ∧
      root.Allows "on" (IsTriggers policy) ∧ root.Allows "permissions" IsPermissions ∧
      root.Allows "env" Node.IsAssignments ∧ root.Allows "defaults" (IsDefaults policy) ∧
      root.Allows "concurrency" (IsConcurrency policy) ∧
      root.Allows "jobs" (Node.IsFree fun _ => IsJob policy) := by
  rw [Section.clean_fill (nodup_readFields policy what s)]
  simp [readFields, Form.keys, Section.problemsAt_eq_nil hs, hs, Node.IsFixed, hn,
    Section.permissionsKey]

theorem clean_read {policy : Policy} {root : Node} :
    (read policy root).Clean ↔ IsWorkflow policy root := by
  refine Section.clean_withinOwner (fun h => h.keys.1) fun s hn hs => ?_
  obtain ⟨complete, hvalue, -⟩ := exists_value_readFields policy "workflow" s
  rw [clean_bind, clean_fill_readFields hn hs, Section.value_fill, hvalue]
  simp only [clean_bind, Section.value_field, hs, Section.clean_require_bind hs, clean_pure,
    and_true]
  -- the required keys are there, and what is there has its shape
  constructor
  · rintro ⟨⟨keys, name, runName, triggers, permissions, env, defaults, concurrency, jobs⟩,
      hasTriggers, hasJobs⟩
    exact ⟨keys, Node.requires_iff.mpr ⟨hasTriggers, triggers⟩,
      Node.requires_iff.mpr ⟨hasJobs, jobs⟩, name, runName, permissions, env, defaults,
      concurrency⟩
  · intro h
    obtain ⟨hasTriggers, triggers⟩ := Node.requires_iff.mp h.triggers
    obtain ⟨hasJobs, jobs⟩ := Node.requires_iff.mp h.jobs
    exact ⟨⟨h.keys, h.name, h.runName, triggers, h.permissions, h.env, h.defaults,
      h.concurrency, jobs⟩, hasTriggers, hasJobs⟩

theorem explained_read (policy : Policy) (root : Node) : (read policy root).Explained := by
  refine Section.explained_withinOwner fun s => explained_of_clean ?_
  obtain ⟨complete, hvalue, hmemOn, hmemJobs⟩ := exists_value_readFields policy "workflow" s
  have nodup := nodup_readFields policy "workflow" s
  simp only [clean_bind, Section.value_fill, hvalue, Section.value_field, Section.value_require]
  rintro ⟨hfill, hon, hjobs, -⟩
  obtain ⟨triggers, ht⟩ := Section.exists_value_of_require
    (fun n => (Trigger.accounts_readList policy n).explained) nodup hfill hmemOn hon
  obtain ⟨jobs, hj⟩ := Section.exists_value_of_require
    (fun n => (Job.accounts_readAll policy n).explained) nodup hfill hmemJobs hjobs
  simp [hvalue, ht, hj]

theorem parse_eq_ok_iff {policy : Policy} {root : Node} {w : Workflow} :
    parse policy root = .ok w ↔
      (read policy root).problems = [] ∧ (read policy root).value = some w := by
  unfold parse
  rcases read policy root with ⟨_ | w', _ | ⟨p, ps⟩⟩ <;> simp

/-- A workflow is given exactly if nothing is found wrong; the value is there by then. -/
theorem exists_parse_iff_clean {policy : Policy} {root : Node} :
    (∃ w, parse policy root = .ok w) ↔ (read policy root).Clean := by
  have hexplained := explained_read policy root
  unfold parse
  rcases e : read policy root with ⟨_ | w, _ | ⟨p, ps⟩⟩
  · -- no value and no problem: excluded
    rw [e] at hexplained
    exact absurd rfl (hexplained rfl)
  · simp [Clean]
  · simp [Clean]
  · simp [Clean]

/-- **What is accepted**: reading a node under a policy gives a workflow exactly if the node is
a workflow of the grammar. -/
theorem exists_parse_eq_ok (policy : Policy) (root : Node) :
    (∃ w, parse policy root = .ok w) ↔ IsWorkflow policy root :=
  exists_parse_iff_clean.trans clean_read

end WorkflowTree.Workflow
