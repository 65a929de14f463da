import WorkflowTree.Position

/-!
# Runners

Where a job runs: on a hosted runner with one label, or on a self-hosted one, which carries a
fixed label before its own ones.
-/

namespace WorkflowTree

/-- Where a job runs. -/
inductive Runner
  | hosted (label : Text) (pos : Position)
  /-- The labels are the ones besides the label of every self-hosted runner. -/
  | selfHosted (labels : List Text) (pos : Position)
  deriving DecidableEq, Repr

namespace Runner

/-- The label of every self-hosted runner. -/
def selfHostedLabel : String := "self-hosted"

/-- The label that decides where a job runs. -/
def label : Runner → String
  | hosted label _ => label.value
  | selfHosted _ _ => selfHostedLabel

/-- All labels, the deciding one first. -/
def labels : Runner → List String
  | hosted label _ => [label.value]
  | selfHosted labels _ => selfHostedLabel :: labels.map Located.value

/-- Where the runner is written. -/
def pos : Runner → Position
  | hosted _ pos | selfHosted _ pos => pos

theorem head?_labels (r : Runner) : r.labels.head? = some r.label := by
  cases r <;> rfl

end Runner

end WorkflowTree
