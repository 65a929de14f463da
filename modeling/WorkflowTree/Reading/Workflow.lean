import WorkflowTree.Reading.Job
import WorkflowTree.Reading.Trigger
import WorkflowTree.Workflow
import WorkflowTree.Yaml.Document

/-!
# Reading workflows

A workflow is accepted if nothing is wrong with it. Otherwise the problems that the policy
keeps are given, sorted by place.
-/

namespace WorkflowTree

namespace Workflow

/-- Reads the keys of a workflow: the required ones, and the workflow that the others make of
these. -/
def readFields (policy : Policy) (what : String) (s : Section) :
    Form (Option (List Trigger) × Option (Keyed Job) × (List Trigger → Keyed Job → Workflow)) := do
  let name ← s.field "name" (readText "\"name\" section")
  let runName ← s.field "run-name" (readText "\"run-name\" section")
  let triggers ← s.field "on" (Trigger.readList policy)
  let permissions ← s.field Section.permissionsKey (Permissions.read what)
  let env ← s.field "env" (readEnv "\"env\" section")
  let defaults ← s.field "defaults" (Defaults.read policy what)
  let concurrency ← s.field "concurrency" (Concurrency.read policy what)
  let jobs ← s.field "jobs" (Job.readAll policy)
  return (triggers, jobs, fun triggers jobs => {
    name, runName, triggers, permissions, env := env.getD .empty, defaults, concurrency, jobs })

/-- Reads a workflow, as far as that is possible. -/
def read (policy : Policy) (root : Node) : Checked (Option Workflow) :=
  let what := "workflow"
  Section.withinOwner what root fun s => do
    let (triggers, jobs, complete) ← s.fill policy what (readFields policy what s)
    let triggers ← s.require triggers "on" what root.pos
    let jobs ← s.require jobs "jobs" what root.pos
    return do
      let triggers ← triggers
      let jobs ← jobs
      some (complete triggers jobs)

/-- Reads a workflow, which has to be free of problems. -/
def parse (policy : Policy) (root : Node) : Except (List Problem) Workflow :=
  match read policy root with
  | ⟨some w, []⟩ => .ok w
  | ⟨_, problems⟩ => .error (Problem.sort (policy.keep problems))

/-- Decodes a text and reads the workflow in it. -/
def parseText (policy : Policy) (source : String) : Except (List Problem) Workflow :=
  match Yaml.decode source with
  | .ok root => parse policy root
  | .error e => .error [⟨.undecodable e.value, e.pos⟩]

end Workflow

end WorkflowTree
