import WorkflowTree.Reading.Scalar
import WorkflowTree.Workflow.Trigger

/-!
# Reading triggers

Triggers are written as one name, as a sequence of names, or as a mapping from names to what
belongs to each trigger.
-/

namespace WorkflowTree

/-- The webhooks that may trigger a workflow. -/
def webhookNames : List String := [
  "branch_protection_rule", "check_run", "check_suite", "create", "delete", "deployment",
  "deployment_status", "discussion", "discussion_comment", "fork", "gollum", "issue_comment",
  "issues", "label", "merge_group", "milestone", "page_build", "project", "project_card",
  "project_column", "public", "pull_request", "pull_request_review",
  "pull_request_review_comment", "pull_request_target", "push", "registry_package", "release",
  "status", "watch", "workflow_call", "workflow_run"]

/-- A webhook of this name may trigger a workflow. -/
def Policy.allowsWebhook (policy : Policy) (name : String) : Bool :=
  webhookNames.contains name || policy.extraWebhookEvents.contains name

/-- Goes on with the mapping that belongs to a trigger. Without one, or with no value in its
place, the trigger is read as if the mapping had no entries. -/
def withinBody {α : Type} (what : String) (body : Option Node)
    (k : Section → Checked (Option α)) : Checked (Option α) :=
  match body.filter fun n => !n.isNull with
  | none => k .empty
  | some n => Section.within what n k

/-- Reads a webhook and its filters. -/
def WebhookTrigger.read (policy : Policy) (hook : Text) (body : Option Node) :
    Checked (Option WebhookTrigger) :=
  let what := s!"\"{hook.value}\" event"
  withinBody what body fun s => some <$> s.fill policy what do
    let filter (key : String) := s.field key (readTextOrTexts s!"\"{key}\" in {what}")
    let types ← filter "types"
    let branches ← filter "branches"
    let branchesIgnore ← filter "branches-ignore"
    let tags ← filter "tags"
    let tagsIgnore ← filter "tags-ignore"
    let paths ← filter "paths"
    let pathsIgnore ← filter "paths-ignore"
    let workflows ← filter "workflows"
    return { hook, types, branches, branchesIgnore, tags, tagsIgnore, paths, pathsIgnore,
             workflows, pos := hook.pos }

namespace ScheduleTrigger

/-- How a schedule is called in messages. -/
def what : String := s!"\"{Trigger.scheduleName}\" event"

/-- Reads one time of a schedule. -/
def readTime (policy : Policy) (n : Node) : Checked (Option Text) :=
  Section.within what n fun s => do
    let cron ← s.fill policy what (s.field "cron" (readText "\"cron\" in schedule"))
    s.require cron "cron" what n.pos

/-- Reads a schedule. -/
def read (policy : Policy) (pos : Position) (body : Option Node) :
    Checked (Option ScheduleTrigger) :=
  match body with
  | none => .refuse (.missing what "cron") pos
  | some n =>
    match n.items? with
    | some items => do
      return some { cron := ← Checked.collect (items.map (readTime policy)), pos }
    | none => mismatch n what "a sequence of mappings with \"cron\""

end ScheduleTrigger

/-- Reads an input of a workflow that is started by hand. No value stands for no fields. -/
def DispatchInput.read (policy : Policy) (e : Entry) : Checked (Option DispatchInput) :=
  let what := s!"input \"{e.key.value}\" of workflow_dispatch"
  withinBody what (some e.value) fun s => some <$> s.fill policy what do
    let of (key : String) := s!"\"{key}\" in {what}"
    let description ← s.field "description" (readText (of "description"))
    let required ← s.field "required" (readFlag (of "required"))
    let fallback ← s.field "default" (readText (of "default"))
    let type ← s.field "type" (readText (of "type"))
    let options ← s.field "options" (readTexts (of "options"))
    return { name := e.key, description, required, fallback, type, options }

namespace WorkflowDispatch

/-- Reads the inputs of a workflow that is started by hand. -/
def readInputs (policy : Policy) (n : Node) : Checked (Option (Keyed DispatchInput)) :=
  Section.within "\"inputs\" of workflow_dispatch" n fun s =>
    some <$> s.collect (DispatchInput.read policy)

/-- Reads the trigger that fires by hand. -/
def read (policy : Policy) (pos : Position) (body : Option Node) :
    Checked (Option WorkflowDispatch) :=
  let what := s!"\"{Trigger.workflowDispatchName}\" event"
  withinBody what body fun s => some <$> s.fill policy what do
    let inputs ← s.field "inputs" (readInputs policy)
    return { inputs := inputs.getD .empty, pos }

end WorkflowDispatch

/-- Reads the trigger that another program fires. -/
def RepositoryDispatch.read (policy : Policy) (pos : Position) (body : Option Node) :
    Checked (Option RepositoryDispatch) :=
  let what := s!"\"{Trigger.repositoryDispatchName}\" event"
  withinBody what body fun s => some <$> s.fill policy what do
    let types ← s.field "types" (readTextOrTexts "\"types\" in repository_dispatch")
    return { types, pos }

namespace Trigger

/-- Reads one trigger from its name and what belongs to it. -/
def read (policy : Policy) (hook : Text) (body : Option Node) : Checked (Option Trigger) :=
  if hook.value = scheduleName then
    Option.map schedule <$> ScheduleTrigger.read policy hook.pos body
  else if hook.value = workflowDispatchName then
    Option.map workflowDispatch <$> WorkflowDispatch.read policy hook.pos body
  else if hook.value = repositoryDispatchName then
    Option.map repositoryDispatch <$> RepositoryDispatch.read policy hook.pos body
  else if policy.allowsWebhook hook.value then
    Option.map webhook <$> WebhookTrigger.read policy hook body
  else
    .refuse (.shape "trigger"
      "a webhook event, \"schedule\", \"workflow_dispatch\" or \"repository_dispatch\""
      s!"unknown event \"{hook.value}\"") hook.pos

/-- How the triggers of a workflow are called in messages. -/
def listWhat : String := "\"on\" section"

/-- Reads a trigger of a sequence. -/
def readItem (policy : Policy) (n : Node) : Checked (Option Trigger) :=
  match n.leaf? with
  | some hook => read policy hook none
  | none => mismatch n s!"element of {listWhat}" "an event name"

/-- Reads the triggers of a workflow. -/
def readList (policy : Policy) (n : Node) : Checked (Option (List Trigger)) :=
  match n with
  | .scalar text _ pos => Option.map ([·]) <$> read policy ⟨text, pos⟩ none
  | .sequence items _ => some <$> Checked.collect (items.map (readItem policy))
  | _ => Section.within listWhat n fun s =>
    some <$> Checked.collect (s.entries.map fun e => read policy e.key (some e.value))

end Trigger

end WorkflowTree
