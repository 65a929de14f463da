import WorkflowTree.Edit.Job
import WorkflowTree.Workflow

/-!
# Editing workflows

A workflow starts with one trigger.
-/

namespace WorkflowTree

/-- A change of a workflow. -/
inductive WorkflowEdit
  | name (t : Text)
  | runName (t : Text)
  /-- Adds a trigger behind the others. -/
  | trigger (t : Trigger)
  | permissions (p : Permissions)
  | env (name value : Text)
  | defaults (d : Defaults)
  | concurrency (c : Concurrency)
  | job (j : Job)
  deriving DecidableEq, Repr

namespace Workflow

/-- The workflow without jobs. -/
def ofTrigger (t : Trigger) : Workflow := { triggers := [t] }

/-- Makes an edit. -/
def edit (w : Workflow) : WorkflowEdit → Except Problem Workflow
  | .name t => .ok { w with name := some t }
  | .runName t => .ok { w with runName := some t }
  | .trigger t => .ok { w with triggers := w.triggers ++ [t] }
  | .permissions p => .ok { w with permissions := some p }
  | .env name value => do
    let env ← w.env.addUnique "\"env\" section" name ⟨name, value⟩ (·.name.pos)
    return { w with env }
  | .defaults d => .ok { w with defaults := some d }
  | .concurrency c => .ok { w with concurrency := some c }
  | .job j => do
    let jobs ← w.jobs.addUnique "\"jobs\" section" j.id j (·.id.pos)
    return { w with jobs }

/-- Adds the job that is built from one without steps. -/
def addBuiltJob (w : Workflow) (id : Text) (runsOn : Runner) (build : Job → Except Problem Job) :
    Except Problem Workflow := do
  w.edit (.job (← build (Job.ofRunner id runsOn)))

/-- Adds a job that is edited first. -/
def addJob (w : Workflow) (id : Text) (runsOn : Runner) (edits : List JobEdit) :
    Except Problem Workflow :=
  w.addBuiltJob id runsOn fun j => editAll Job.edit j edits

end Workflow

end WorkflowTree
