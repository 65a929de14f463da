import WorkflowTree.Reading.Settings

/-!
# Reading steps

A step either runs a script or uses an action, and some keys go with only one of the two. Two
keys that exclude each other are reported once; a key whose value is malformed is reported for
that and does not count as missing.
-/

namespace WorkflowTree

/-- The keys of an action's inputs that are kept apart from the other inputs. -/
def ActionUse.entrypointKey : String := "entrypoint"

/-- The key of an action's arguments, which are kept apart from its inputs. -/
def ActionUse.argsKey : String := "args"

namespace ActionUse

/-- The action with these assignments, some of which are kept apart. -/
def ofAssignments (action : Text) (inputs : Assignments) : ActionUse where
  action
  inputs := inputs.filterMap fun key a =>
    if [entrypointKey, argsKey].contains key then none else some a
  entrypoint := (inputs.find? entrypointKey).map Assignment.value
  args := (inputs.find? argsKey).map Assignment.value

/-- Reads what is passed to an action. -/
def readInputs (owner : String) (n : Node) : Checked (Option Assignments) :=
  Section.within s!"\"with\" in {owner}" n fun s => some <$> s.collect fun e =>
    Assignment.read s!"input \"{e.key.value}\" in {owner}" e

end ActionUse

namespace Step

/-- The problem of two keys that exclude each other. It stands at the second one. -/
def exclusive (owner : String) (first second : Text) : Problem :=
  ⟨.exclusive owner s!"\"{first.value}\"" s!"\"{second.value}\"", second.pos⟩

/-- The keys and values that say what a step does. -/
structure ExecFields where
  run : Option (Text × Text)
  uses : Option (Text × Text)
  inputs : Option (Text × Node)
  shell : Option (Text × Text)
  workingDirectory : Option (Text × Text)

/-- Decides what a step does. -/
def readExec (owner : String) (s : Section) (pos : Position) (f : ExecFields) :
    Checked (Option Exec) := do
  match f.run, f.uses with
  | some (runKey, _), some (usesKey, _) =>
    Checked.reportAll [
      if runKey.pos.before usesKey.pos then exclusive owner runKey usesKey
      else exclusive owner usesKey runKey]
    return none
  | some (runKey, script), none =>
    Checked.reportAll (f.inputs.toList.map fun i => exclusive owner runKey i.1)
    return some (.run {
      script, shell := f.shell.map Prod.snd,
      workingDirectory := f.workingDirectory.map Prod.snd })
  | none, some (usesKey, action) =>
    Checked.reportAll ((f.shell.toList ++ f.workingDirectory.toList).map fun k =>
      exclusive owner usesKey k.1)
    let inputs ← match f.inputs with
      | some (_, n) => ActionUse.readInputs owner n
      | none => pure none
    return some (.action (.ofAssignments action (inputs.getD .empty)))
  | none, none =>
    if !(s.has "run" || s.has "uses") then
      Checked.report (.missing owner "run or uses") pos
    return none

/-- Reads the keys of a step: those that say what it does, and the step that the others make of
what it does. -/
def readFields (what : String) (s : Section) (pos : Position) :
    Form (ExecFields × (Exec → Step)) := do
  let of (key : String) := s!"\"{key}\" in {what}"
  let id ← s.field "id" (readText (of "id"))
  let condition ← s.field "if" (readText (of "if"))
  let name ← s.field "name" (readText (of "name"))
  let run ← s.fieldWithKey "run" (readText (of "run"))
  let uses ← s.fieldWithKey "uses" (readText (of "uses"))
  let inputs ← s.fieldWithKey "with" (fun n => pure (some n))
  let shell ← s.fieldWithKey "shell" (readText (of "shell"))
  let workingDirectory ← s.fieldWithKey "working-directory" (readText (of "working-directory"))
  let env ← s.field "env" (readEnv (of "env"))
  let continueOnError ← s.field "continue-on-error" (readFlag (of "continue-on-error"))
  let timeout ← s.field "timeout-minutes" (readMinutes (of "timeout-minutes"))
  return ({ run, uses, inputs, shell, workingDirectory }, fun exec => {
    id, condition, name, exec, env := env.getD .empty, continueOnError, timeout, pos })

/-- Reads a step. -/
def read (policy : Policy) (what : String) (n : Node) : Checked (Option Step) :=
  Section.within what n fun s => do
    let (fields, complete) ← s.fill policy what (readFields what s n.pos)
    let exec ← readExec what s n.pos fields
    return exec.map complete

/-- Reads the steps of a job. Steps are counted from one. -/
def readList (policy : Policy) (owner : String) (n : Node) : Checked (Option (List Step)) :=
  match n.items? with
  | some items =>
    some <$> Checked.collect (items.zipIdx.map fun (item, i) =>
      read policy s!"step {i + 1} of {owner}" item)
  | none => mismatch n s!"\"steps\" in {owner}" "a sequence of steps"

end Step

end WorkflowTree
