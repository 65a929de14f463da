import WorkflowTree.Keyed
import WorkflowTree.Position

/-!
# Settings

The blocks that workflows and jobs share: assignments of values to names, defaults for
scripts, concurrency groups, and the environment that a job deploys to.
-/

namespace WorkflowTree

/-- A name and the text that is given to it. -/
structure Assignment where
  name : Text
  value : Text
  deriving DecidableEq, Repr

/-- Assignments, under the texts of their names. -/
abbrev Assignments := Keyed Assignment

/-- Where scripts run and what runs them, unless a step says otherwise. -/
structure ScriptDefaults where
  shell : Option Text := none
  workingDirectory : Option Text := none
  pos : Position
  deriving DecidableEq, Repr

/-- The defaults of a workflow or a job. -/
structure Defaults where
  run : Option ScriptDefaults := none
  pos : Position
  deriving DecidableEq, Repr

/-- The group of which at most one run is in progress. -/
structure Concurrency where
  group : Text
  cancelInProgress : Option Flag := none
  pos : Position
  deriving DecidableEq, Repr

/-- Where a job deploys to. -/
structure Environment where
  name : Text
  url : Option Text := none
  pos : Position
  deriving DecidableEq, Repr

end WorkflowTree
