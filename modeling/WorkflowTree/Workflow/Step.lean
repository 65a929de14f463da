import WorkflowTree.Number.Binary64
import WorkflowTree.Workflow.Settings

/-!
# Steps

What a job does, one after the other: run a script or use an action.

* `firstLine_of_not_mem` and `firstLine_append` say what the first line of a text is.
-/

namespace WorkflowTree

/-- A number of minutes that was written at some place. -/
abbrev Minutes := Located Binary64

/-- A script and what runs it. -/
structure ScriptRun where
  script : Text
  shell : Option Text := none
  workingDirectory : Option Text := none
  deriving DecidableEq, Repr

/-- An action and its inputs. -/
structure ActionUse where
  action : Text
  inputs : Assignments := .empty
  entrypoint : Option Text := none
  args : Option Text := none
  deriving DecidableEq, Repr

/-- What a step does. -/
inductive Exec
  | run (r : ScriptRun)
  | action (a : ActionUse)
  deriving DecidableEq, Repr

/-- One step of a job. -/
structure Step where
  id : Option Text := none
  condition : Option Text := none
  name : Option Text := none
  exec : Exec
  env : Assignments := .empty
  continueOnError : Option Flag := none
  timeout : Option Minutes := none
  pos : Position
  deriving DecidableEq, Repr

namespace ActionUse

/-- The action is an image of a registry. -/
def isDocker (a : ActionUse) : Bool := "docker://".toList.isPrefixOf a.action.value.toList

/-- The action is part of the repository. -/
def isLocal (a : ActionUse) : Bool := "./".toList.isPrefixOf a.action.value.toList

end ActionUse

/-- The text before the first line break, without a carriage return that belongs to the
break. A text without a line break is its own first line. -/
def firstLine (cs : List Char) : List Char :=
  let line := cs.takeWhile (· != '\n')
  if line.length < cs.length && line.getLast? == some '\r' then line.dropLast else line

theorem takeWhile_line {line : List Char} (h : '\n' ∉ line) (rest : List Char) :
    (line ++ rest).takeWhile (· != '\n') = line ++ rest.takeWhile (· != '\n') := by
  refine List.takeWhile_append_of_pos fun c hc => ?_
  have : c ≠ '\n' := fun hn => h (hn ▸ hc)
  simpa using this

theorem firstLine_of_not_mem {cs : List Char} (h : '\n' ∉ cs) : firstLine cs = cs := by
  have : cs.takeWhile (· != '\n') = cs := by simpa using takeWhile_line h []
  simp [firstLine, this]

theorem firstLine_append {line rest : List Char} (h : '\n' ∉ line)
    (hr : line.getLast? ≠ some '\r') : firstLine (line ++ '\n' :: rest) = line := by
  have : (line ++ '\n' :: rest).takeWhile (· != '\n') = line := by
    rw [takeWhile_line h]
    simp
  simp [firstLine, this, hr]

theorem firstLine_append_return {line rest : List Char} (h : '\n' ∉ line) :
    firstLine (line ++ '\r' :: '\n' :: rest) = line := by
  have hr : '\n' ∉ line ++ ['\r'] := by simpa using h
  have : (line ++ '\r' :: '\n' :: rest).takeWhile (· != '\n') = line ++ ['\r'] := by
    have := takeWhile_line hr ('\n' :: rest)
    simpa using this
  simp [firstLine, this]

namespace Step

/-- The step runs a script. -/
def isRun (s : Step) : Bool :=
  match s.exec with
  | .run _ => true
  | .action _ => false

/-- The text by which the step is shown: its name, or else the first line of its script or
its action. -/
def displayName (s : Step) : String :=
  match s.name, s.exec with
  | some name, _ => name.value
  | none, .run r => .ofList (firstLine r.script.value.toList)
  | none, .action a => a.action.value

end Step

end WorkflowTree
