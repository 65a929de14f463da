import WorkflowTree.Edit.Step
import WorkflowTree.Workflow.Job

/-!
# Editing jobs

A job starts with its id and its runner.
-/

namespace WorkflowTree

/-- A change of a job. -/
inductive JobEdit
  | name (t : Text)
  /-- Adds a job that has to be done before. -/
  | need (id : Text)
  | condition (t : Text)
  /-- Adds a step behind the others. -/
  | step (s : Step)
  | permissions (p : Permissions)
  | environment (e : Environment)
  | concurrency (c : Concurrency)
  | defaults (d : Defaults)
  | strategy (s : Strategy)
  | timeout (m : Minutes)
  | continueOnError (f : Flag)
  | container (c : Container)
  | output (name value : Text)
  | env (name value : Text)
  | service (s : Service)
  deriving DecidableEq, Repr

namespace Job

/-- The job without steps. -/
def ofRunner (id : Text) (runsOn : Runner) : Job := { id, runsOn, pos := id.pos }

/-- How a part of the job is called in messages. -/
def partOf (j : Job) (key : String) : String := s!"\"{key}\" of job \"{j.id.value}\""

/-- Makes an edit. -/
def edit (j : Job) : JobEdit → Except Problem Job
  | .name t => .ok { j with name := some t }
  | .need id => .ok { j with needs := j.needs ++ [id] }
  | .condition t => .ok { j with condition := some t }
  | .step s => .ok { j with steps := j.steps ++ [s] }
  | .permissions p => .ok { j with permissions := some p }
  | .environment e => .ok { j with environment := some e }
  | .concurrency c => .ok { j with concurrency := some c }
  | .defaults d => .ok { j with defaults := some d }
  | .strategy s => .ok { j with strategy := some s }
  | .timeout m => .ok { j with timeout := some m }
  | .continueOnError f => .ok { j with continueOnError := some f }
  | .container c => .ok { j with container := some c }
  | .output name value => do
    let outputs ← j.outputs.addUnique (j.partOf "outputs") name ⟨name, value⟩ (·.name.pos)
    return { j with outputs }
  | .env name value => do
    let env ← j.env.addUnique (j.partOf "env") name ⟨name, value⟩ (·.name.pos)
    return { j with env }
  | .service s => do
    let services ← j.services.addUnique (j.partOf "services") s.name s (·.name.pos)
    return { j with services }

end Job

end WorkflowTree
