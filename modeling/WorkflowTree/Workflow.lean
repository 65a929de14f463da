import WorkflowTree.Workflow.Job
import WorkflowTree.Workflow.Trigger

/-!
# Workflows

A workflow has triggers that start it and jobs that it consists of.

* `Workflow.jobsByPlace_perm` and `Workflow.jobsByPlace_pairwise` say that listing the jobs by
  place loses none, adds none and sorts them.
-/

namespace WorkflowTree

/-- A workflow. -/
structure Workflow where
  name : Option Text := none
  runName : Option Text := none
  triggers : List Trigger
  permissions : Option Permissions := none
  env : Assignments := .empty
  defaults : Option Defaults := none
  concurrency : Option Concurrency := none
  /-- The jobs, under the texts of their ids. -/
  jobs : Keyed Job := .empty
  deriving DecidableEq, Repr

namespace Workflow

/-- The job with this id. -/
def job? (w : Workflow) (id : String) : Option Job := w.jobs.find? id

/-- The triggers with this name. -/
def triggersNamed (w : Workflow) (name : String) : List Trigger :=
  w.triggers.filter fun t => t.name == name

/-- The jobs, sorted by the places of their ids. -/
def jobsByPlace (w : Workflow) : List Job :=
  w.jobs.values.mergeSort fun i j => i.id.pos.le j.id.pos

/-- The ids of the jobs, sorted by their places. -/
def jobIds (w : Workflow) : List String := w.jobsByPlace.map fun j => j.id.value

/-- The number of steps of all jobs. -/
def stepCount (w : Workflow) : Nat := (w.jobs.values.flatMap Job.steps).length

theorem jobsByPlace_perm (w : Workflow) : w.jobsByPlace.Perm w.jobs.values :=
  List.mergeSort_perm ..

theorem jobsByPlace_pairwise (w : Workflow) :
    w.jobsByPlace.Pairwise fun i j => i.id.pos.le j.id.pos = true :=
  @List.pairwise_mergeSort _ (fun i j : Job => i.id.pos.le j.id.pos)
    (fun _ _ _ => Position.le_trans) (fun i j => Position.le_total i.id.pos j.id.pos) _

end Workflow

end WorkflowTree
