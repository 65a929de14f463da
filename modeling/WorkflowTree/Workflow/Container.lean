import WorkflowTree.Workflow.Settings

/-!
# Containers

The images that a job runs in or beside.
-/

namespace WorkflowTree

/-- The account of a registry. -/
structure Credentials where
  username : Text
  password : Text
  pos : Position
  deriving DecidableEq, Repr

/-- An image and how it is started. -/
structure Container where
  image : Text
  credentials : Option Credentials := none
  env : Assignments := .empty
  ports : List Text := []
  volumes : List Text := []
  options : Option Text := none
  pos : Position
  deriving DecidableEq, Repr

/-- A container that runs beside a job. -/
structure Service where
  name : Text
  container : Container
  deriving DecidableEq, Repr

end WorkflowTree
