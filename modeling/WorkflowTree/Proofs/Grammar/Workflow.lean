import WorkflowTree.Proofs.Grammar.Shape
import WorkflowTree.Reading.Trigger
import Mathlib.Tactic.MkIffOfInductiveProp

/-!
# The grammar of workflow files

Which nodes are workflows, said part by part from the leaves to the root.  `IsWorkflow` is the
shape of a whole file.  A policy matters in two places only: it may pass over unknown keys of
fixed sections, and it may name further webhooks.

Each shape is a structure whose first field gives the keys of the section; the fields behind it
give the shapes of the values, the required ones first.
-/

namespace WorkflowTree

open Node

/-! ### Settings -/

/-- A blanket permission, or a mapping from scopes to what they get. -/
def IsPermissions (n : Node) : Prop :=
  n.IsWord ["read-all", "write-all"] ∨ n.IsFree fun _ => IsWord ["none", "read", "write"]

/-- The defaults of scripts. -/
@[mk_iff] structure IsScriptDefaults (policy : Policy) (n : Node) : Prop where
  keys : n.IsFixed policy ["shell", "working-directory"]
  shell : n.Allows "shell" IsText
  workingDirectory : n.Allows "working-directory" IsText

/-- The defaults of a workflow or a job. -/
@[mk_iff] structure IsDefaults (policy : Policy) (n : Node) : Prop where
  keys : n.IsFixed policy ["run"]
  run : n.Allows "run" (IsScriptDefaults policy)

/-- A concurrency group that is written as a mapping. -/
@[mk_iff] structure IsConcurrencyMapping (policy : Policy) (n : Node) : Prop where
  keys : n.IsFixed policy ["group", "cancel-in-progress"]
  group : n.Requires "group" IsText
  cancelInProgress : n.Allows "cancel-in-progress" IsFlag

/-- A concurrency group. -/
def IsConcurrency (policy : Policy) (n : Node) : Prop :=
  n.IsText ∨ IsConcurrencyMapping policy n

/-- An environment that is written as a mapping. -/
@[mk_iff] structure IsEnvironmentMapping (policy : Policy) (n : Node) : Prop where
  keys : n.IsFixed policy ["name", "url"]
  name : n.Requires "name" IsText
  url : n.Allows "url" IsText

/-- The environment of a job. -/
def IsEnvironment (policy : Policy) (n : Node) : Prop :=
  n.IsText ∨ IsEnvironmentMapping policy n

/-! ### Containers -/

/-- The account of a registry. -/
@[mk_iff] structure IsCredentials (policy : Policy) (n : Node) : Prop where
  keys : n.IsFixed policy ["username", "password"]
  username : n.Requires "username" IsText
  password : n.Requires "password" IsText

/-- A container that is written as a mapping. -/
structure IsContainerMapping (policy : Policy) (n : Node) : Prop where
  keys : n.IsFixed policy ["image", "credentials", "env", "ports", "volumes", "options"]
  image : n.Requires "image" IsText
  credentials : n.Allows "credentials" (IsCredentials policy)
  env : n.Allows "env" IsAssignments
  ports : n.Allows "ports" (IsSequenceOf IsText)
  volumes : n.Allows "volumes" (IsSequenceOf IsText)
  options : n.Allows "options" IsText

/-- A container. -/
def IsContainer (policy : Policy) (n : Node) : Prop :=
  n.IsText ∨ IsContainerMapping policy n

/-! ### Strategies -/

/-- What stands under a key of a matrix: runs that are added or left out, or else the values of
a row. -/
def IsMatrixValue (key : String) (n : Node) : Prop :=
  if key = "include" ∨ key = "exclude" then n.IsSequenceOf IsAssignments
  else n.IsSequenceOf IsText

/-- A strategy. -/
@[mk_iff] structure IsStrategy (policy : Policy) (n : Node) : Prop where
  keys : n.IsFixed policy ["matrix", "fail-fast", "max-parallel"]
  matrix : n.Allows "matrix" (IsFree IsMatrixValue)
  failFast : n.Allows "fail-fast" IsFlag
  maxParallel : n.Allows "max-parallel" IsCount

/-! ### Triggers -/

/-- What belongs to a trigger: nothing, no value, or a node of a shape. -/
def IsBody (shape : Node → Prop) (body : Option Node) : Prop :=
  ∀ n, body = some n → n.isNull = true ∨ shape n

/-- The filters of a webhook. -/
@[mk_iff] structure IsWebhook (policy : Policy) (n : Node) : Prop where
  keys : n.IsFixed policy ["types", "branches", "branches-ignore", "tags", "tags-ignore",
    "paths", "paths-ignore", "workflows"]
  types : n.Allows "types" IsTextOrTexts
  branches : n.Allows "branches" IsTextOrTexts
  branchesIgnore : n.Allows "branches-ignore" IsTextOrTexts
  tags : n.Allows "tags" IsTextOrTexts
  tagsIgnore : n.Allows "tags-ignore" IsTextOrTexts
  paths : n.Allows "paths" IsTextOrTexts
  pathsIgnore : n.Allows "paths-ignore" IsTextOrTexts
  workflows : n.Allows "workflows" IsTextOrTexts

/-- One time of a schedule. -/
@[mk_iff] structure IsTime (policy : Policy) (n : Node) : Prop where
  keys : n.IsFixed policy ["cron"]
  cron : n.Requires "cron" IsText

/-- An input that is asked for when a workflow is started by hand. -/
@[mk_iff] structure IsDispatchInput (policy : Policy) (n : Node) : Prop where
  keys : n.IsFixed policy ["description", "required", "default", "type", "options"]
  description : n.Allows "description" IsText
  required : n.Allows "required" IsFlag
  fallback : n.Allows "default" IsText
  type : n.Allows "type" IsText
  options : n.Allows "options" (IsSequenceOf IsText)

/-- What belongs to the trigger that fires by hand. -/
@[mk_iff] structure IsWorkflowDispatch (policy : Policy) (n : Node) : Prop where
  keys : n.IsFixed policy ["inputs"]
  inputs : n.Allows "inputs" (IsFree fun _ v => IsBody (IsDispatchInput policy) (some v))

/-- What belongs to the trigger that another program fires. -/
@[mk_iff] structure IsRepositoryDispatch (policy : Policy) (n : Node) : Prop where
  keys : n.IsFixed policy ["types"]
  types : n.Allows "types" IsTextOrTexts

/-- A name of a trigger and what belongs to it.  Only a schedule needs a body.  The three names
that are no webhooks keep their meaning also if the policy lists them as webhooks. -/
@[mk_iff] inductive IsTrigger (policy : Policy) : String → Option Node → Prop
  | schedule {n : Node} : n.IsSequenceOf (IsTime policy) → IsTrigger policy "schedule" (some n)
  | workflowDispatch {body : Option Node} :
      IsBody (IsWorkflowDispatch policy) body → IsTrigger policy "workflow_dispatch" body
  | repositoryDispatch {body : Option Node} :
      IsBody (IsRepositoryDispatch policy) body → IsTrigger policy "repository_dispatch" body
  | webhook {name : String} {body : Option Node} :
      name ∉ ["schedule", "workflow_dispatch", "repository_dispatch"] →
      name ∈ webhookNames ∨ name ∈ policy.extraWebhookEvents →
      IsBody (IsWebhook policy) body → IsTrigger policy name body

/-- The triggers of a workflow: one name, a sequence of names, or a mapping from names to what
belongs to them. -/
inductive IsTriggers (policy : Policy) (n : Node) : Prop
  | name {name : String} : n.text? = some name → IsTrigger policy name none →
      IsTriggers policy n
  | names : n.IsSequenceOf (fun i => ∃ name, i.text? = some name ∧ IsTrigger policy name none) →
      IsTriggers policy n
  | bodies : n.IsFree (fun name body => IsTrigger policy name (some body)) →
      IsTriggers policy n

/-! ### Jobs -/

/-- The labels of a runner: one label, or a sequence of labels that is either a single one or
has the label of self-hosted runners among them. -/
def IsRunner (n : Node) : Prop :=
  n.IsText ∨ ∃ labels, n.items? = some labels ∧ (∀ l ∈ labels, l.IsText) ∧
    (labels.length = 1 ∨ ∃ l ∈ labels, l.text? = some "self-hosted")

/-- A step.  It either runs a script or uses an action, and some keys go with only one of the
two. -/
@[mk_iff] structure IsStep (policy : Policy) (n : Node) : Prop where
  keys : n.IsFixed policy ["id", "if", "name", "run", "uses", "with", "shell",
    "working-directory", "env", "continue-on-error", "timeout-minutes"]
  one : n.Has "run" ∧ ¬ n.Has "uses" ∨ n.Has "uses" ∧ ¬ n.Has "run"
  withUses : n.Has "with" → n.Has "uses"
  shellRuns : n.Has "shell" → n.Has "run"
  workingDirectoryRuns : n.Has "working-directory" → n.Has "run"
  id : n.Allows "id" IsText
  condition : n.Allows "if" IsText
  name : n.Allows "name" IsText
  run : n.Allows "run" IsText
  uses : n.Allows "uses" IsText
  inputs : n.Allows "with" IsAssignments
  shell : n.Allows "shell" IsText
  workingDirectory : n.Allows "working-directory" IsText
  env : n.Allows "env" IsAssignments
  continueOnError : n.Allows "continue-on-error" IsFlag
  timeout : n.Allows "timeout-minutes" IsMinutes

/-- A job. -/
structure IsJob (policy : Policy) (n : Node) : Prop where
  keys : n.IsFixed policy ["name", "needs", "runs-on", "permissions", "environment",
    "concurrency", "outputs", "env", "defaults", "if", "steps", "timeout-minutes", "strategy",
    "continue-on-error", "container", "services"]
  runsOn : n.Requires "runs-on" IsRunner
  steps : n.Requires "steps" (IsSequenceOf (IsStep policy))
  name : n.Allows "name" IsText
  needs : n.Allows "needs" IsTextOrTexts
  permissions : n.Allows "permissions" IsPermissions
  environment : n.Allows "environment" (IsEnvironment policy)
  concurrency : n.Allows "concurrency" (IsConcurrency policy)
  outputs : n.Allows "outputs" IsAssignments
  env : n.Allows "env" IsAssignments
  defaults : n.Allows "defaults" (IsDefaults policy)
  condition : n.Allows "if" IsText
  timeout : n.Allows "timeout-minutes" IsMinutes
  strategy : n.Allows "strategy" (IsStrategy policy)
  continueOnError : n.Allows "continue-on-error" IsFlag
  container : n.Allows "container" (IsContainer policy)
  services : n.Allows "services" (IsFree fun _ => IsContainer policy)

/-! ### Workflows -/

/-- A workflow. -/
structure IsWorkflow (policy : Policy) (n : Node) : Prop where
  keys : n.IsFixed policy ["name", "run-name", "on", "permissions", "env", "defaults",
    "concurrency", "jobs"]
  triggers : n.Requires "on" (IsTriggers policy)
  jobs : n.Requires "jobs" (IsFree fun _ => IsJob policy)
  name : n.Allows "name" IsText
  runName : n.Allows "run-name" IsText
  permissions : n.Allows "permissions" IsPermissions
  env : n.Allows "env" IsAssignments
  defaults : n.Allows "defaults" (IsDefaults policy)
  concurrency : n.Allows "concurrency" (IsConcurrency policy)

end WorkflowTree
