import WorkflowTree.Keyed
import WorkflowTree.Position

/-!
# Triggers

What starts a workflow. There are four shapes of triggers, and what only one shape has is
part of that shape alone.
-/

namespace WorkflowTree

/-- A trigger that a webhook fires. A filter that was not written is absent, which is not the
same as one that was written and is empty. -/
structure WebhookTrigger where
  hook : Text
  types : Option (List Text) := none
  branches : Option (List Text) := none
  branchesIgnore : Option (List Text) := none
  tags : Option (List Text) := none
  tagsIgnore : Option (List Text) := none
  paths : Option (List Text) := none
  pathsIgnore : Option (List Text) := none
  workflows : Option (List Text) := none
  pos : Position
  deriving DecidableEq, Repr

/-- A trigger that fires at given times. -/
structure ScheduleTrigger where
  cron : List Text
  pos : Position
  deriving DecidableEq, Repr

/-- A value that is asked for when a workflow is started by hand. -/
structure DispatchInput where
  name : Text
  description : Option Text := none
  required : Option Flag := none
  fallback : Option Text := none
  type : Option Text := none
  options : Option (List Text) := none
  deriving DecidableEq, Repr

/-- A trigger that fires by hand. -/
structure WorkflowDispatch where
  inputs : Keyed DispatchInput := .empty
  pos : Position
  deriving DecidableEq, Repr

/-- A trigger that another program fires. -/
structure RepositoryDispatch where
  types : Option (List Text) := none
  pos : Position
  deriving DecidableEq, Repr

/-- What starts a workflow. -/
inductive Trigger
  | webhook (t : WebhookTrigger)
  | schedule (t : ScheduleTrigger)
  | workflowDispatch (t : WorkflowDispatch)
  | repositoryDispatch (t : RepositoryDispatch)
  deriving DecidableEq, Repr

namespace WebhookTrigger

/-- No filter was written. -/
def isUnfiltered (t : WebhookTrigger) : Bool :=
  [t.types, t.branches, t.branchesIgnore, t.tags, t.tagsIgnore, t.paths, t.pathsIgnore,
    t.workflows].all Option.isNone

end WebhookTrigger

namespace Trigger

/-- The name of the trigger that fires at given times. -/
def scheduleName : String := "schedule"

/-- The name of the trigger that fires by hand. -/
def workflowDispatchName : String := "workflow_dispatch"

/-- The name of the trigger that another program fires. -/
def repositoryDispatchName : String := "repository_dispatch"

/-- The name under which a trigger is written. -/
def name : Trigger → String
  | webhook t => t.hook.value
  | schedule _ => scheduleName
  | workflowDispatch _ => workflowDispatchName
  | repositoryDispatch _ => repositoryDispatchName

/-- Where the trigger is written. -/
def pos : Trigger → Position
  | webhook t => t.pos
  | schedule t => t.pos
  | workflowDispatch t => t.pos
  | repositoryDispatch t => t.pos

end Trigger

end WorkflowTree
