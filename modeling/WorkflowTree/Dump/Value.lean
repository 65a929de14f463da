import WorkflowTree.Workflow

/-!
# Dumped values

The plain data that a workflow tree is dumped as. A structure is a record with all of its
fields, an absent field is null, and a keyed collection is a record under its keys. What has
several shapes says by a field of its own which one it has.
-/

namespace WorkflowTree

/-- Plain data. -/
inductive Value
  | null
  | flag (b : Bool)
  | integer (i : Int)
  | number (x : Binary64)
  | text (s : String)
  | list (items : List Value)
  | record (fields : List (String × Value))

namespace Value

/-- The data of a value that may be absent. -/
def optional {α : Type} (f : α → Value) : Option α → Value
  | none => null
  | some a => f a

/-- The data of a list. -/
def ofList {α : Type} (f : α → Value) (as : List α) : Value := list (as.map f)

/-- The data of a keyed collection. -/
def ofKeyed {α : Type} (f : α → Value) (m : Keyed α) : Value :=
  record (m.entries.map fun e => (e.1, f e.2))

/-- The data of a place. -/
def ofPosition (p : Position) : Value :=
  record [("line", integer p.line), ("col", integer p.column)]

/-- The data of a leaf. -/
def ofLocated {α : Type} (f : α → Value) (x : Located α) : Value :=
  record [("value", f x.value), ("pos", ofPosition x.pos)]

/-- The data of a text. -/
def ofText : Text → Value := ofLocated text

/-- The data of a truth value. -/
def ofFlag : Flag → Value := ofLocated flag

/-- The data of an integer. -/
def ofCount : Count → Value := ofLocated integer

/-- The data of a number of minutes. -/
def ofMinutes : Minutes → Value := ofLocated number

/-- The data of a list of texts. -/
def ofTexts : List Text → Value := ofList ofText

end Value

open Value

/-- The data of assignments. -/
def Assignment.toValue (a : Assignment) : Value :=
  record [("name", ofText a.name), ("value", ofText a.value)]

/-- The data of an assignment in a combination of a matrix. -/
def Assignment.toCombinationValue (a : Assignment) : Value :=
  record [("key", ofText a.name), ("value", ofText a.value)]

/-- The data of the defaults of scripts. -/
def ScriptDefaults.toValue (d : ScriptDefaults) : Value := record [
  ("shell", optional ofText d.shell),
  ("working_directory", optional ofText d.workingDirectory),
  ("pos", ofPosition d.pos)]

/-- The data of defaults. -/
def Defaults.toValue (d : Defaults) : Value :=
  record [("run", optional ScriptDefaults.toValue d.run), ("pos", ofPosition d.pos)]

/-- The data of a concurrency group. -/
def Concurrency.toValue (c : Concurrency) : Value := record [
  ("group", ofText c.group),
  ("cancel_in_progress", optional ofFlag c.cancelInProgress),
  ("pos", ofPosition c.pos)]

/-- The data of an environment. -/
def Environment.toValue (e : Environment) : Value := record [
  ("name", ofText e.name), ("url", optional ofText e.url), ("pos", ofPosition e.pos)]

/-- The data of an access. -/
def Access.toValue (a : Access) : Value := text a.word

/-- The data of a grant. -/
def Grant.toValue (g : Grant) : Value := record [
  ("name", optional ofText g.name), ("kind", g.access.toValue), ("pos", ofPosition g.pos)]

/-- The data of grants. -/
def Grants.toValue : Grants → Value
  | all g => record [("form", text "all"), ("grant", g.toValue)]
  | scopes gs => record [("form", text "scopes"), ("grant", ofKeyed Grant.toValue gs)]

/-- The data of permissions. -/
def Permissions.toValue (p : Permissions) : Value :=
  record [("scope", p.grants.toValue), ("pos", ofPosition p.pos)]

/-- The data of an input of a workflow that is started by hand. -/
def DispatchInput.toValue (i : DispatchInput) : Value := record [
  ("name", ofText i.name),
  ("description", optional ofText i.description),
  ("required", optional ofFlag i.required),
  ("default", optional ofText i.fallback),
  ("input_type", optional ofText i.type),
  ("options", optional ofTexts i.options)]

/-- The data of a trigger. -/
def Trigger.toValue : Trigger → Value
  | webhook t => record [
    ("kind", text "webhook"),
    ("hook", ofText t.hook),
    ("types", optional ofTexts t.types),
    ("branches", optional ofTexts t.branches),
    ("branches_ignore", optional ofTexts t.branchesIgnore),
    ("tags", optional ofTexts t.tags),
    ("tags_ignore", optional ofTexts t.tagsIgnore),
    ("paths", optional ofTexts t.paths),
    ("paths_ignore", optional ofTexts t.pathsIgnore),
    ("workflows", optional ofTexts t.workflows),
    ("pos", ofPosition t.pos)]
  | schedule t => record [
    ("kind", text "scheduled"), ("cron", ofTexts t.cron), ("pos", ofPosition t.pos)]
  | workflowDispatch t => record [
    ("kind", text "workflow_dispatch"),
    ("inputs", ofKeyed DispatchInput.toValue t.inputs),
    ("pos", ofPosition t.pos)]
  | repositoryDispatch t => record [
    ("kind", text "repository_dispatch"),
    ("types", optional ofTexts t.types),
    ("pos", ofPosition t.pos)]

/-- The data of a runner. -/
def Runner.toValue : Runner → Value
  | hosted label pos => record [
    ("kind", text "github_hosted"), ("label", ofText label), ("pos", ofPosition pos)]
  | selfHosted labels pos => record [
    ("kind", text "self_hosted"), ("labels", ofTexts labels), ("pos", ofPosition pos)]

/-- The data of the account of a registry. -/
def Credentials.toValue (c : Credentials) : Value := record [
  ("username", ofText c.username), ("password", ofText c.password), ("pos", ofPosition c.pos)]

/-- The data of a container. -/
def Container.toValue (c : Container) : Value := record [
  ("image", ofText c.image),
  ("credentials", optional Credentials.toValue c.credentials),
  ("env", ofKeyed Assignment.toValue c.env),
  ("ports", ofTexts c.ports),
  ("volumes", ofTexts c.volumes),
  ("options", optional ofText c.options),
  ("pos", ofPosition c.pos)]

/-- The data of a service. -/
def Service.toValue (s : Service) : Value :=
  record [("name", ofText s.name), ("container", s.container.toValue)]

/-- The data of a row of a matrix. -/
def MatrixRow.toValue (r : MatrixRow) : Value :=
  record [("name", ofText r.name), ("values", ofTexts r.values)]

/-- The data of a matrix. -/
def Matrix.toValue (m : Matrix) : Value := record [
  ("rows", ofKeyed MatrixRow.toValue m.rows),
  ("include", ofList (ofKeyed Assignment.toCombinationValue) m.included),
  ("exclude", ofList (ofKeyed Assignment.toCombinationValue) m.excluded),
  ("pos", ofPosition m.pos)]

/-- The data of a strategy. -/
def Strategy.toValue (s : Strategy) : Value := record [
  ("matrix", optional Matrix.toValue s.matrix),
  ("fail_fast", optional ofFlag s.failFast),
  ("max_parallel", optional ofCount s.maxParallel),
  ("pos", ofPosition s.pos)]

/-- The data of what a step does. -/
def Exec.toValue : Exec → Value
  | run r => record [
    ("kind", text "run"),
    ("run", ofText r.script),
    ("shell", optional ofText r.shell),
    ("working_directory", optional ofText r.workingDirectory)]
  | action a => record [
    ("kind", text "action"),
    ("uses", ofText a.action),
    ("inputs", ofKeyed Assignment.toValue a.inputs),
    ("entrypoint", optional ofText a.entrypoint),
    ("args", optional ofText a.args)]

/-- The data of a step. -/
def Step.toValue (s : Step) : Value := record [
  ("id", optional ofText s.id),
  ("if_cond", optional ofText s.condition),
  ("name", optional ofText s.name),
  ("exec", s.exec.toValue),
  ("env", ofKeyed Assignment.toValue s.env),
  ("continue_on_error", optional ofFlag s.continueOnError),
  ("timeout_minutes", optional ofMinutes s.timeout),
  ("pos", ofPosition s.pos)]

/-- The data of a job. -/
def Job.toValue (j : Job) : Value := record [
  ("id", ofText j.id),
  ("name", optional ofText j.name),
  ("needs", ofTexts j.needs),
  ("runs_on", j.runsOn.toValue),
  ("permissions", optional Permissions.toValue j.permissions),
  ("environment", optional Environment.toValue j.environment),
  ("concurrency", optional Concurrency.toValue j.concurrency),
  ("outputs", ofKeyed Assignment.toValue j.outputs),
  ("env", ofKeyed Assignment.toValue j.env),
  ("defaults", optional Defaults.toValue j.defaults),
  ("if_cond", optional ofText j.condition),
  ("steps", ofList Step.toValue j.steps),
  ("timeout_minutes", optional ofMinutes j.timeout),
  ("strategy", optional Strategy.toValue j.strategy),
  ("continue_on_error", optional ofFlag j.continueOnError),
  ("container", optional Container.toValue j.container),
  ("services", ofKeyed Service.toValue j.services),
  ("pos", ofPosition j.pos)]

/-- The data of a workflow. -/
def Workflow.toValue (w : Workflow) : Value := record [
  ("name", optional ofText w.name),
  ("run_name", optional ofText w.runName),
  ("on", ofList Trigger.toValue w.triggers),
  ("permissions", optional Permissions.toValue w.permissions),
  ("env", ofKeyed Assignment.toValue w.env),
  ("defaults", optional Defaults.toValue w.defaults),
  ("concurrency", optional Concurrency.toValue w.concurrency),
  ("jobs", ofKeyed Job.toValue w.jobs)]

end WorkflowTree
