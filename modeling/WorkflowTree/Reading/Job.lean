import WorkflowTree.Reading.Container
import WorkflowTree.Reading.Step
import WorkflowTree.Reading.Strategy
import WorkflowTree.Workflow.Job

/-!
# Reading jobs

The problems of a job that lacks a required key stand at its id.
-/

namespace WorkflowTree

namespace Runner

/-- The runner that labels ask for: a self-hosted one if its label is among them, or a hosted
one if there is just one label. -/
def ofLabels? (labels : List Text) (pos : Position) : Option Runner :=
  if labels.any fun l => l.value == selfHostedLabel then
    some (.selfHosted (labels.filter fun l => l.value != selfHostedLabel) pos)
  else
    match labels with
    | [label] => some (.hosted label pos)
    | _ => none

/-- Reads the labels of a runner. -/
def readLabels (what : String) (n : Node) : Checked (Option (List Text)) :=
  match n with
  | .scalar text _ pos => pure (some [⟨text, pos⟩])
  | .sequence _ _ => readTexts what n
  | _ => mismatch n what "a runner label or a sequence of labels"

/-- Reads a runner. -/
def read (what : String) (n : Node) : Checked (Option Runner) :=
  (readLabels what n).andThen fun labels =>
    match ofLabels? labels n.pos with
    | some r => pure (some r)
    | none => mismatch n what "a single hosted label, or \"self-hosted\" with extra labels"

end Runner

namespace Job

/-- Reads the outputs of a job. -/
def readOutputs (what : String) (n : Node) : Checked (Option Assignments) :=
  Section.within what n fun s => some <$> s.collect fun e =>
    Assignment.read s!"output \"{e.key.value}\"" e

/-- Reads the keys of a job: the required ones, and the job that the others make of these. -/
def readFields (policy : Policy) (what : String) (id : Text) (s : Section) :
    Form (Option Runner × Option (List Step) × (Runner → List Step → Job)) := do
  let of (key : String) := s!"\"{key}\" in {what}"
  let name ← s.field "name" (readText (of "name"))
  let needs ← s.field "needs" (readTextOrTexts (of "needs"))
  let runsOn ← s.field "runs-on" (Runner.read (of "runs-on"))
  let permissions ← s.field Section.permissionsKey (Permissions.read what)
  let environment ← s.field "environment" (Environment.read policy (of "environment"))
  let concurrency ← s.field "concurrency" (Concurrency.read policy what)
  let outputs ← s.field "outputs" (readOutputs (of "outputs"))
  let env ← s.field "env" (readEnv (of "env"))
  let defaults ← s.field "defaults" (Defaults.read policy what)
  let condition ← s.field "if" (readText (of "if"))
  let steps ← s.field "steps" (Step.readList policy what)
  let timeout ← s.field "timeout-minutes" (readMinutes (of "timeout-minutes"))
  let strategy ← s.field "strategy" (Strategy.read policy (of "strategy"))
  let continueOnError ← s.field "continue-on-error" (readFlag (of "continue-on-error"))
  let container ← s.field "container" (Container.read policy (of "container"))
  let services ← s.field "services" (readServices policy (of "services"))
  return (runsOn, steps, fun runsOn steps => {
    id, name, needs := needs.getD [], runsOn, permissions, environment, concurrency,
    outputs := outputs.getD .empty, env := env.getD .empty, defaults, condition, steps,
    timeout, strategy, continueOnError, container, services := services.getD .empty,
    pos := id.pos })

/-- Reads a job. -/
def read (policy : Policy) (id : Text) (n : Node) : Checked (Option Job) :=
  let what := s!"job \"{id.value}\""
  Section.withinOwner what n fun s => do
    let (runsOn, steps, complete) ← s.fill policy what (readFields policy what id s)
    let runsOn ← s.require runsOn "runs-on" what id.pos
    let steps ← s.require steps "steps" what id.pos
    return do
      let runsOn ← runsOn
      let steps ← steps
      some (complete runsOn steps)

/-- Reads the jobs of a workflow. -/
def readAll (policy : Policy) (n : Node) : Checked (Option (Keyed Job)) :=
  Section.within "\"jobs\" section" n fun s => some <$> s.collect fun e =>
    read policy e.key e.value

end Job

end WorkflowTree
