import WorkflowTree.Proofs.Meaning.Source
import WorkflowTree.Workflow

/-!
# What workflow files mean

The parts of a workflow tree that the nodes of a file mean, from the leaves to the whole workflow
(`MeansWorkflow`).  Each relation is a structure with one field for each field of the part: it names
the key that the field is under, and what the value under the key has to mean.

Fields are related in one of four ways.  A field that may be left out is absent exactly if its key
is (`Option.Rel`).  A required one has its key (`Node.Requires`).  A list or a collection that is
empty without its key is related by `MeansOr`.  A field that is not under a key, such as a name or a
place, is given by an equation.
-/

namespace WorkflowTree

/-! ### Settings -/

/-- An entry means the assignment of its value to its key. -/
structure MeansAssignment (e : Entry) (a : Assignment) : Prop where
  name : a.name = e.key
  value : MeansText e.value a.value

/-- A mapping from names to texts. -/
def MeansAssignments : Node → Assignments → Prop := MeansKeyed MeansAssignment

/-- The grant of one scope. -/
structure MeansGrant (e : Entry) (g : Grant) : Prop where
  name : g.name = some e.key
  access : e.value.text? = some g.access.word
  pos : g.pos = e.key.pos

/-- A scalar grants the same to every scope, which is never nothing; a mapping grants to single
scopes. -/
inductive MeansGrants (n : Node) : Grants → Prop
  | readAll : n.text? = some "read-all" → MeansGrants n (.all ⟨none, .read, n.pos⟩)
  | writeAll : n.text? = some "write-all" → MeansGrants n (.all ⟨none, .write, n.pos⟩)
  | scopes {kvs : List (Node × Node)} {gs : Keyed Grant} : n.entries? = some kvs →
      MeansKeyed MeansGrant n gs → MeansGrants n (.scopes gs)

/-- The permissions of a workflow or a job. -/
structure MeansPermissions (n : Node) (p : Permissions) : Prop where
  grants : MeansGrants n p.grants
  pos : p.pos = n.pos

/-- The defaults of scripts. -/
structure MeansScriptDefaults (n : Node) (d : ScriptDefaults) : Prop where
  shell : Option.Rel MeansText (n.get? "shell") d.shell
  workingDirectory : Option.Rel MeansText (n.get? "working-directory") d.workingDirectory
  pos : d.pos = n.pos

/-- The defaults of a workflow or a job. -/
structure MeansDefaults (n : Node) (d : Defaults) : Prop where
  run : Option.Rel MeansScriptDefaults (n.get? "run") d.run
  pos : d.pos = n.pos

/-- A concurrency group. -/
structure MeansConcurrency (n : Node) (c : Concurrency) : Prop where
  group : MeansTextOrKey "group" n c.group
  cancelInProgress : Option.Rel MeansFlag (n.get? "cancel-in-progress") c.cancelInProgress
  pos : c.pos = n.pos

/-- The environment of a job. -/
structure MeansEnvironment (n : Node) (e : Environment) : Prop where
  name : MeansTextOrKey "name" n e.name
  url : Option.Rel MeansText (n.get? "url") e.url
  pos : e.pos = n.pos

/-! ### Containers -/

/-- The account of a registry. -/
structure MeansCredentials (n : Node) (c : Credentials) : Prop where
  username : n.Requires "username" (MeansText · c.username)
  password : n.Requires "password" (MeansText · c.password)
  pos : c.pos = n.pos

/-- A container. -/
structure MeansContainer (n : Node) (c : Container) : Prop where
  image : MeansTextOrKey "image" n c.image
  credentials : Option.Rel MeansCredentials (n.get? "credentials") c.credentials
  env : MeansOr .empty MeansAssignments (n.get? "env") c.env
  ports : MeansOr [] MeansTexts (n.get? "ports") c.ports
  volumes : MeansOr [] MeansTexts (n.get? "volumes") c.volumes
  options : Option.Rel MeansText (n.get? "options") c.options
  pos : c.pos = n.pos

/-- A container that runs beside a job. -/
structure MeansService (e : Entry) (s : Service) : Prop where
  name : s.name = e.key
  container : MeansContainer e.value s.container

/-! ### Strategies -/

/-- A row of a matrix. -/
structure MeansRow (e : Entry) (r : MatrixRow) : Prop where
  name : r.name = e.key
  values : MeansTexts e.value r.values

/-- A matrix.  Every key is the name of a row, but for two. -/
structure MeansMatrix (n : Node) (m : Matrix) : Prop where
  rows : MeansKeyedBut ["include", "exclude"] MeansRow n m.rows
  included : MeansOr [] (MeansList MeansAssignments) (n.get? "include") m.included
  excluded : MeansOr [] (MeansList MeansAssignments) (n.get? "exclude") m.excluded
  pos : m.pos = n.pos

/-- A strategy. -/
structure MeansStrategy (n : Node) (s : Strategy) : Prop where
  matrix : Option.Rel MeansMatrix (n.get? "matrix") s.matrix
  failFast : Option.Rel MeansFlag (n.get? "fail-fast") s.failFast
  maxParallel : Option.Rel MeansCount (n.get? "max-parallel") s.maxParallel
  pos : s.pos = n.pos

/-! ### Triggers

What belongs to a trigger is a node or nothing.  Looking up a key finds as little in nothing as in
a node that is no mapping. -/

/-- The filters of a webhook. -/
structure MeansFilters (body : Option Node) (t : WebhookTrigger) : Prop where
  types : Option.Rel MeansTextOrTexts (body.bind (·.get? "types")) t.types
  branches : Option.Rel MeansTextOrTexts (body.bind (·.get? "branches")) t.branches
  branchesIgnore :
    Option.Rel MeansTextOrTexts (body.bind (·.get? "branches-ignore")) t.branchesIgnore
  tags : Option.Rel MeansTextOrTexts (body.bind (·.get? "tags")) t.tags
  tagsIgnore : Option.Rel MeansTextOrTexts (body.bind (·.get? "tags-ignore")) t.tagsIgnore
  paths : Option.Rel MeansTextOrTexts (body.bind (·.get? "paths")) t.paths
  pathsIgnore : Option.Rel MeansTextOrTexts (body.bind (·.get? "paths-ignore")) t.pathsIgnore
  workflows : Option.Rel MeansTextOrTexts (body.bind (·.get? "workflows")) t.workflows

/-- A webhook. -/
structure MeansWebhook (name : Text) (body : Option Node) (t : WebhookTrigger) : Prop where
  hook : t.hook = name
  filters : MeansFilters body t
  pos : t.pos = name.pos

/-- One time of a schedule. -/
def MeansTime (n : Node) (t : Text) : Prop := n.Requires "cron" (MeansText · t)

/-- A schedule. -/
structure MeansSchedule (name : Text) (body : Option Node) (t : ScheduleTrigger) : Prop where
  cron : ∃ n, body = some n ∧ MeansList MeansTime n t.cron
  pos : t.pos = name.pos

/-- An input that is asked for when a workflow is started by hand. -/
structure MeansDispatchInput (e : Entry) (i : DispatchInput) : Prop where
  name : i.name = e.key
  description : Option.Rel MeansText (e.value.get? "description") i.description
  required : Option.Rel MeansFlag (e.value.get? "required") i.required
  fallback : Option.Rel MeansText (e.value.get? "default") i.fallback
  type : Option.Rel MeansText (e.value.get? "type") i.type
  options : Option.Rel MeansTexts (e.value.get? "options") i.options

/-- The trigger that fires by hand. -/
structure MeansWorkflowDispatch (name : Text) (body : Option Node) (t : WorkflowDispatch) :
    Prop where
  inputs : MeansOr .empty (MeansKeyed MeansDispatchInput) (body.bind (·.get? "inputs")) t.inputs
  pos : t.pos = name.pos

/-- The trigger that another program fires. -/
structure MeansRepositoryDispatch (name : Text) (body : Option Node) (t : RepositoryDispatch) :
    Prop where
  types : Option.Rel MeansTextOrTexts (body.bind (·.get? "types")) t.types
  pos : t.pos = name.pos

/-- A trigger, whose shape its name decides. -/
inductive MeansTrigger (name : Text) (body : Option Node) : Trigger → Prop
  | schedule {t : ScheduleTrigger} : name.value = "schedule" → MeansSchedule name body t →
      MeansTrigger name body (.schedule t)
  | workflowDispatch {t : WorkflowDispatch} : name.value = "workflow_dispatch" →
      MeansWorkflowDispatch name body t → MeansTrigger name body (.workflowDispatch t)
  | repositoryDispatch {t : RepositoryDispatch} : name.value = "repository_dispatch" →
      MeansRepositoryDispatch name body t → MeansTrigger name body (.repositoryDispatch t)
  | webhook {t : WebhookTrigger} :
      name.value ∉ ["schedule", "workflow_dispatch", "repository_dispatch"] →
      MeansWebhook name body t → MeansTrigger name body (.webhook t)

/-- A node that names a trigger, and what belongs to it. -/
def MeansHook (h : Node × Option Node) (t : Trigger) : Prop :=
  ∃ name, MeansText h.1 name ∧ MeansTrigger name h.2 t

/-- The triggers of a workflow. -/
def MeansTriggers (n : Node) (ts : List Trigger) : Prop := List.Forall₂ MeansHook n.hooks ts

/-! ### Steps -/

/-- A script and what runs it. -/
structure MeansScriptRun (n : Node) (r : ScriptRun) : Prop where
  script : n.Requires "run" (MeansText · r.script)
  shell : Option.Rel MeansText (n.get? "shell") r.shell
  workingDirectory : Option.Rel MeansText (n.get? "working-directory") r.workingDirectory

/-- An action and what is passed to it.  Two keys of what is passed are kept apart. -/
structure MeansActionUse (n : Node) (a : ActionUse) : Prop where
  action : n.Requires "uses" (MeansText · a.action)
  inputs :
    MeansOr .empty (MeansKeyedBut ["entrypoint", "args"] MeansAssignment) (n.get? "with") a.inputs
  entrypoint : Option.Rel MeansText (n.at? ["with", "entrypoint"]) a.entrypoint
  args : Option.Rel MeansText (n.at? ["with", "args"]) a.args

/-- What a step does. -/
inductive MeansExec (n : Node) : Exec → Prop
  | run {r : ScriptRun} : n.get? "uses" = none → MeansScriptRun n r → MeansExec n (.run r)
  | action {a : ActionUse} : n.get? "run" = none → MeansActionUse n a → MeansExec n (.action a)

/-- A step. -/
structure MeansStep (n : Node) (s : Step) : Prop where
  id : Option.Rel MeansText (n.get? "id") s.id
  condition : Option.Rel MeansText (n.get? "if") s.condition
  name : Option.Rel MeansText (n.get? "name") s.name
  exec : MeansExec n s.exec
  env : MeansOr .empty MeansAssignments (n.get? "env") s.env
  continueOnError : Option.Rel MeansFlag (n.get? "continue-on-error") s.continueOnError
  timeout : Option.Rel MeansMinutes (n.get? "timeout-minutes") s.timeout
  pos : s.pos = n.pos

/-! ### Jobs -/

/-- A runner.  The label of self-hosted runners decides, and is not kept as a label. -/
inductive MeansRunner (n : Node) : Runner → Prop
  | hosted {label : Text} : MeansTextOrTexts n [label] → label.value ≠ "self-hosted" →
      MeansRunner n (.hosted label n.pos)
  | selfHosted {labels : List Text} : MeansTextOrTexts n labels →
      (∃ l ∈ labels, l.value = "self-hosted") →
      MeansRunner n (.selfHosted (labels.filter fun l => l.value != "self-hosted") n.pos)

/-- A job, under its id. -/
structure MeansJob (e : Entry) (j : Job) : Prop where
  id : j.id = e.key
  name : Option.Rel MeansText (e.value.get? "name") j.name
  needs : MeansOr [] MeansTextOrTexts (e.value.get? "needs") j.needs
  runsOn : e.value.Requires "runs-on" (MeansRunner · j.runsOn)
  permissions : Option.Rel MeansPermissions (e.value.get? "permissions") j.permissions
  environment : Option.Rel MeansEnvironment (e.value.get? "environment") j.environment
  concurrency : Option.Rel MeansConcurrency (e.value.get? "concurrency") j.concurrency
  outputs : MeansOr .empty MeansAssignments (e.value.get? "outputs") j.outputs
  env : MeansOr .empty MeansAssignments (e.value.get? "env") j.env
  defaults : Option.Rel MeansDefaults (e.value.get? "defaults") j.defaults
  condition : Option.Rel MeansText (e.value.get? "if") j.condition
  steps : e.value.Requires "steps" (MeansList MeansStep · j.steps)
  timeout : Option.Rel MeansMinutes (e.value.get? "timeout-minutes") j.timeout
  strategy : Option.Rel MeansStrategy (e.value.get? "strategy") j.strategy
  continueOnError : Option.Rel MeansFlag (e.value.get? "continue-on-error") j.continueOnError
  container : Option.Rel MeansContainer (e.value.get? "container") j.container
  services : MeansOr .empty (MeansKeyed MeansService) (e.value.get? "services") j.services
  pos : j.pos = e.key.pos

/-! ### Workflows -/

/-- A workflow. -/
structure MeansWorkflow (root : Node) (w : Workflow) : Prop where
  name : Option.Rel MeansText (root.get? "name") w.name
  runName : Option.Rel MeansText (root.get? "run-name") w.runName
  triggers : root.Requires "on" (MeansTriggers · w.triggers)
  permissions : Option.Rel MeansPermissions (root.get? "permissions") w.permissions
  env : MeansOr .empty MeansAssignments (root.get? "env") w.env
  defaults : Option.Rel MeansDefaults (root.get? "defaults") w.defaults
  concurrency : Option.Rel MeansConcurrency (root.get? "concurrency") w.concurrency
  jobs : root.Requires "jobs" (MeansKeyed MeansJob · w.jobs)

end WorkflowTree
