import WorkflowTree.Proofs.Grammar.Workflow

/-!
# Pruning unknown keys

Pruning takes out of the fixed sections of a workflow file the entries whose keys are texts that
the section does not have, from the root to the leaves.  Section by section it is said here which
keys there are, as the grammar says it, and what is pruned in turn of the values under them.  What
stands under free keys is pruned, and the keys stay.

No definition here looks at a reader or at its problems.
-/

namespace WorkflowTree

/-! ### Selecting entries -/

namespace Node

/-- What is left of an entry: nothing if its key is a text that is not selected, and else the
entry with its value changed as its key asks for. -/
def selectEntry (f : String → Option (Node → Node)) (kv : Node × Node) : Option (Node × Node) :=
  match kv.1.text? with
  | none => some kv
  | some key => (f key).map fun g => (kv.1, g kv.2)

/-- Selects entries of a mapping and changes their values. -/
def select (f : String → Option (Node → Node)) : Node → Node
  | mapping entries pos => mapping (entries.filterMap (selectEntry f)) pos
  | n => n

/-- Selects the keys of a list, and changes the values of those that another list names. -/
def known (keys : List String) (inner : List (String × (Node → Node))) (key : String) :
    Option (Node → Node) :=
  if keys.contains key then some ((inner.lookup key).getD id) else none

/-- Takes unknown keys out of a mapping, and changes the values of some of the known ones. -/
def pruneFixed (keys : List String) (inner : List (String × (Node → Node))) : Node → Node :=
  select (known keys inner)

/-- Changes the values of a mapping that may have any keys. -/
def pruneFree (inner : String → Node → Node) : Node → Node := select fun key => some (inner key)

/-- Changes the items of a sequence. -/
def pruneItems (inner : Node → Node) : Node → Node
  | sequence items pos => sequence (items.map inner) pos
  | n => n

theorem mem_of_known {keys : List String} {inner : List (String × (Node → Node))} {key : String}
    {g : Node → Node} (h : known keys inner key = some g) : key ∈ keys := by
  unfold known at h
  split at h
  · next hkey => exact List.contains_iff_mem.mp hkey
  · cases h

section Select

variable (f : String → Option (Node → Node)) (n : Node)

@[simp] theorem pos_select : (n.select f).pos = n.pos := by cases n <;> rfl

@[simp] theorem leaf?_select : (n.select f).leaf? = n.leaf? := by cases n <;> rfl

@[simp] theorem isNull_select : (n.select f).isNull = n.isNull := by cases n <;> rfl

theorem entries?_select :
    (n.select f).entries? = n.entries?.map (List.filterMap (selectEntry f)) := by
  cases n <;> rfl

end Select

@[simp] theorem items?_pruneItems (inner : Node → Node) (n : Node) :
    (n.pruneItems inner).items? = n.items?.map (List.map inner) := by cases n <;> rfl

end Node

open Node

/-! ### Settings -/

/-- Prunes the defaults of scripts. -/
def ScriptDefaults.prune : Node → Node := pruneFixed ["shell", "working-directory"] []

/-- Prunes the defaults of a workflow or a job. -/
def Defaults.prune : Node → Node := pruneFixed ["run"] [("run", ScriptDefaults.prune)]

/-- Prunes a concurrency group, unless it is a text. -/
def Concurrency.prune : Node → Node := pruneFixed ["group", "cancel-in-progress"] []

/-- Prunes the environment of a job, unless it is a text. -/
def Environment.prune : Node → Node := pruneFixed ["name", "url"] []

/-- Prunes the account of a registry. -/
def Credentials.prune : Node → Node := pruneFixed ["username", "password"] []

/-- The keys of a container. -/
def Container.kept : String → Option (Node → Node) :=
  known ["image", "credentials", "env", "ports", "volumes", "options"]
    [("credentials", Credentials.prune)]

/-- Prunes a container, unless it is a text. -/
def Container.prune : Node → Node := select kept

/-- Prunes the containers beside a job. -/
def pruneServices : Node → Node := pruneFree fun _ => Container.prune

/-- Prunes a strategy.  A matrix may have any keys. -/
def Strategy.prune : Node → Node := pruneFixed ["matrix", "fail-fast", "max-parallel"] []

/-! ### Triggers -/

/-- Prunes the filters of a webhook. -/
def WebhookTrigger.prune : Node → Node :=
  pruneFixed ["types", "branches", "branches-ignore", "tags", "tags-ignore", "paths",
    "paths-ignore", "workflows"] []

/-- Prunes one time of a schedule. -/
def ScheduleTrigger.pruneTime : Node → Node := pruneFixed ["cron"] []

/-- Prunes a schedule. -/
def ScheduleTrigger.prune : Node → Node := pruneItems pruneTime

/-- Prunes an input of a workflow that is started by hand. -/
def DispatchInput.prune : Node → Node :=
  pruneFixed ["description", "required", "default", "type", "options"] []

/-- Prunes what belongs to the trigger that fires by hand. -/
def WorkflowDispatch.prune : Node → Node :=
  pruneFixed ["inputs"] [("inputs", pruneFree fun _ => DispatchInput.prune)]

/-- Prunes what belongs to the trigger that another program fires. -/
def RepositoryDispatch.prune : Node → Node := pruneFixed ["types"] []

/-- Prunes what belongs to a trigger of this name. -/
def Trigger.prune (name : String) : Node → Node :=
  if name = scheduleName then ScheduleTrigger.prune
  else if name = workflowDispatchName then WorkflowDispatch.prune
  else if name = repositoryDispatchName then RepositoryDispatch.prune
  else WebhookTrigger.prune

/-- Prunes the triggers of a workflow, if they are written as a mapping. -/
def Trigger.pruneList : Node → Node := pruneFree Trigger.prune

/-! ### Jobs and workflows -/

/-- The keys of a step. -/
def Step.kept : String → Option (Node → Node) :=
  known ["id", "if", "name", "run", "uses", "with", "shell", "working-directory", "env",
    "continue-on-error", "timeout-minutes"] []

/-- Prunes a step. -/
def Step.prune : Node → Node := select kept

/-- The keys of a job. -/
def Job.kept : String → Option (Node → Node) :=
  known ["name", "needs", "runs-on", "permissions", "environment", "concurrency", "outputs",
      "env", "defaults", "if", "steps", "timeout-minutes", "strategy", "continue-on-error",
      "container", "services"]
    [("environment", Environment.prune), ("concurrency", Concurrency.prune),
      ("defaults", Defaults.prune), ("steps", pruneItems Step.prune),
      ("strategy", Strategy.prune), ("container", Container.prune), ("services", pruneServices)]

/-- Prunes a job. -/
def Job.prune : Node → Node := select kept

/-- The keys of a workflow. -/
def Workflow.kept : String → Option (Node → Node) :=
  known ["name", "run-name", "on", "permissions", "env", "defaults", "concurrency", "jobs"]
    [("on", Trigger.pruneList), ("defaults", Defaults.prune), ("concurrency", Concurrency.prune),
      ("jobs", pruneFree fun _ => Job.prune)]

/-- Prunes a workflow. -/
def Workflow.prune : Node → Node := select kept

end WorkflowTree
