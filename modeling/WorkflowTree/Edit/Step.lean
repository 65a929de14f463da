import WorkflowTree.Edit.Unique
import WorkflowTree.Workflow.Step

/-!
# Editing steps

A step starts as a script or an action. Edits that go with the other of the two are refused.
-/

namespace WorkflowTree

/-- A change of a step. -/
inductive StepEdit
  | id (t : Text)
  | name (t : Text)
  | condition (t : Text)
  | continueOnError (f : Flag)
  | timeout (m : Minutes)
  | env (name value : Text)
  | shell (t : Text)
  | workingDirectory (t : Text)
  | input (name value : Text)
  deriving DecidableEq, Repr

namespace Step

/-- The step that runs a script. -/
def ofScript (script : Text) (pos : Position) : Step := { exec := .run { script }, pos }

/-- The step that uses an action. -/
def ofAction (action : Text) (pos : Position) : Step := { exec := .action { action }, pos }

/-- The problem of a key that does not go with what a step does. -/
def conflict (s : Step) (key : String) (pos : Position) : Problem :=
  match s.exec with
  | .run _ => ⟨.exclusive "run step" "\"run\"" s!"\"{key}\"", pos⟩
  | .action _ => ⟨.exclusive "action step" "\"uses\"" s!"\"{key}\"", pos⟩

/-- Makes an edit. -/
def edit (s : Step) : StepEdit → Except Problem Step
  | .id t => .ok { s with id := some t }
  | .name t => .ok { s with name := some t }
  | .condition t => .ok { s with condition := some t }
  | .continueOnError f => .ok { s with continueOnError := some f }
  | .timeout m => .ok { s with timeout := some m }
  | .env name value => do
    let env ← s.env.addUnique "\"env\" of step" name ⟨name, value⟩ (·.name.pos)
    return { s with env }
  | .shell t =>
    match s.exec with
    | .run r => .ok { s with exec := .run { r with shell := some t } }
    | .action _ => .error (s.conflict "shell" t.pos)
  | .workingDirectory t =>
    match s.exec with
    | .run r => .ok { s with exec := .run { r with workingDirectory := some t } }
    | .action _ => .error (s.conflict "working-directory" t.pos)
  | .input name value =>
    match s.exec with
    | .run _ => .error (s.conflict "with" name.pos)
    | .action a => do
      let inputs ← a.inputs.addUnique "\"with\" of step" name ⟨name, value⟩ (·.name.pos)
      return { s with exec := .action { a with inputs } }

end Step

end WorkflowTree
