import WorkflowTree.Workflow.Container
import WorkflowTree.Workflow.Permissions
import WorkflowTree.Workflow.Runner
import WorkflowTree.Workflow.Step
import WorkflowTree.Workflow.Strategy

/-!
# Jobs

A job is a list of steps that run on one runner.
-/

namespace WorkflowTree

/-- One job of a workflow. -/
structure Job where
  id : Text
  name : Option Text := none
  /-- The jobs that have to be done before. -/
  needs : List Text := []
  runsOn : Runner
  permissions : Option Permissions := none
  environment : Option Environment := none
  concurrency : Option Concurrency := none
  outputs : Assignments := .empty
  env : Assignments := .empty
  defaults : Option Defaults := none
  condition : Option Text := none
  steps : List Step := []
  timeout : Option Minutes := none
  strategy : Option Strategy := none
  continueOnError : Option Flag := none
  container : Option Container := none
  services : Keyed Service := .empty
  pos : Position
  deriving DecidableEq, Repr

namespace Job

/-- The first step with this id. -/
def step? (j : Job) (id : String) : Option Step :=
  j.steps.find? fun s => s.id.any fun t => t.value == id

/-- The ids of the jobs that have to be done before. -/
def needsIds (j : Job) : List String := j.needs.map Located.value

end Job

end WorkflowTree
