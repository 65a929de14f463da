import WorkflowTree.Proofs.Grammar.Shape
import WorkflowTree.Reading.Section
import WorkflowTree.Workflow

/-!
# What the parts of a file are read as

A *schema* says what a node is read as: which schema the items of a sequence have, and which schema
the value under each key of a mapping has, if the mapping may have the key at all.  It is the
grammar of workflow files as data, without the conditions that the grammar makes of single leaves.

Two things can be said with schemas that no single reader says.

* `Schema.read?` tells which values of a mapping are read, whatever is wrong with the mapping.
* `Schema.LongForm` tells which nodes may be written in a short form, and what is meant by it.

`Node.Replaced` is the closure of a relation between nodes under all contexts: one part of a node,
at any depth, is replaced by a related one.
-/

namespace WorkflowTree

/-- What a node is read as. -/
inductive Schema
  /-- Anything in which no key is fixed and which has no short form: a text, a sequence of texts, or
  a mapping with any keys to such things. -/
  | any
  /-- A truth value or a number, which counts only if it is written without quotes. -/
  | plain
  /-- A sequence. -/
  | items (item : Schema)
  /-- A sequence of texts, or one text in its place. -/
  | texts
  /-- The labels of a runner, or one label in their place. -/
  | labels
  /-- A mapping with any keys. -/
  | free (value : String → Schema)
  /-- A mapping with the keys of a list. -/
  | fixed (fields : List (String × Schema))
  /-- A mapping with the keys of a list, or a text in place of the mapping with only this key. -/
  | short (key : String) (fields : List (String × Schema))
  /-- The mapping of a workflow or a job, which has the keys of a list. -/
  | owner (fields : List (String × Schema))

namespace Schema

/-! ### Parts -/

/-- The schema of the items of a sequence. -/
def item : Schema → Schema
  | items s => s
  | _ => any

/-- The schema of the values under a key, if a mapping may have the key. -/
def value : Schema → String → Option Schema
  | free value, key => some (value key)
  | fixed fields, key => fields.lookup key
  | short _ fields, key => fields.lookup key
  | owner fields, key => fields.lookup key
  | _, _ => some any

/-- The key is looked at as often as it is there: the permissions of a workflow or a job are, since
their two forms exclude each other. -/
def rereads : Schema → String → Bool
  | owner _, key => key == Section.permissionsKey
  | _, _ => false

/-- The schema by which the value of an entry is read, if it is read at all.  Given are the keys of
the entries before it, and its own key as far as it is a text. -/
def read? (s : Schema) (earlier : List String) (key? : Option String) : Option Schema :=
  key?.bind fun key =>
    if earlier.contains key && !s.rereads key then none else s.value key

/-- A value is not read in three cases: its key is no text, it is a key that the section may not
have, or it stands under an earlier entry already. -/
theorem read?_eq_none {s : Schema} {earlier : List String} {key? : Option String} :
    s.read? earlier key? = none ↔
      key? = none ∨ ∃ key, key? = some key ∧
        (s.value key = none ∨ key ∈ earlier ∧ s.rereads key = false) := by
  rcases key? with - | key
  · simp [read?]
  · rcases h : s.rereads key with - | - <;> by_cases hmem : key ∈ earlier <;> simp [read?, h, hmem]

/-- A value that is read is read by the schema under its key. -/
theorem value_of_read? {s t : Schema} {earlier : List String} {key? : Option String}
    (h : s.read? earlier key? = some t) : key?.bind s.value = some t := by
  rcases key? with - | key
  · cases h
  · simp only [read?, Option.bind_some] at h ⊢
    split at h
    · cases h
    · exact h

theorem read?_of_not_mem {s : Schema} {earlier : List String} {key : String} (h : key ∉ earlier) :
    s.read? earlier (some key) = s.value key := by
  simp [read?, h]

theorem read?_of_rereads {s : Schema} {key : String} (h : s.rereads key = true)
    (earlier : List String) : s.read? earlier (some key) = s.value key := by
  simp [read?, h]

/-! ### Short forms -/

/-- The second node is the long form of the first one, which is a text. -/
def LongForm : Schema → Node → Node → Prop
  | texts, n, n' => n.IsText ∧ ∃ pos, n' = .sequence [n] pos
  | labels, n, n' => n.IsText ∧ n' = .sequence [n] n.pos
  | short key _, n, n' => n.IsText ∧ ∃ k : Node, k.text? = some key ∧ n' = .mapping [(k, n)] n.pos
  | _, _, _ => False

/-- The long form of a mapping that is written as a text. -/
theorem LongForm.of_short {key : String} {fields : List (String × Schema)} {n n' : Node}
    (h : (short key fields).LongForm n n') : ∃ text plain pos plain' pos',
      n = .scalar text plain pos ∧ n' = .mapping [(.scalar key plain' pos', n)] pos := by
  obtain ⟨⟨text, htext⟩, k, hk, rfl⟩ := h
  obtain ⟨text, plain, pos, rfl⟩ : ∃ text plain pos, n = .scalar text plain pos := by
    cases n <;> simp_all [Node.text?]
  cases k with
  | scalar key' plain' pos' =>
    obtain rfl : key' = key := Option.some.inj hk
    exact ⟨text, plain, pos, plain', pos', rfl, rfl⟩
  | _ => cases hk

end Schema

/-! ### Parts of nodes -/

/-- One part of a node is replaced by a related one.  The schema of the node tells how each part is
read. -/
inductive Node.Replaced (P : Schema → Node → Node → Prop) : Schema → Node → Node → Prop
  | here {s : Schema} {n n' : Node} : P s n n' → Replaced P s n n'
  | item {s : Schema} {i i' : Node} (before after : List Node) (pos : Position) :
      Replaced P s.item i i' →
      Replaced P s (.sequence (before ++ i :: after) pos) (.sequence (before ++ i' :: after) pos)
  | key {s : Schema} {k k' : Node} (v : Node) (before after : List (Node × Node))
      (pos : Position) : Replaced P .any k k' →
      Replaced P s (.mapping (before ++ (k, v) :: after) pos)
        (.mapping (before ++ (k', v) :: after) pos)
  | value {s t : Schema} {k v v' : Node} {key : String} (before after : List (Node × Node))
      (pos : Position) : k.text? = some key → s.value key = some t → Replaced P t v v' →
      Replaced P s (.mapping (before ++ (k, v) :: after) pos)
        (.mapping (before ++ (k, v') :: after) pos)

/-! ### Settings -/

/-- The defaults of scripts. -/
def ScriptDefaults.schema : Schema := .fixed [("shell", .any), ("working-directory", .any)]

/-- The defaults of a workflow or a job. -/
def Defaults.schema : Schema := .fixed [("run", ScriptDefaults.schema)]

/-- A concurrency group. -/
def Concurrency.schema : Schema :=
  .short "group" [("group", .any), ("cancel-in-progress", .plain)]

/-- The environment of a job. -/
def Environment.schema : Schema := .short "name" [("name", .any), ("url", .any)]

/-! ### Containers -/

/-- The account of a registry. -/
def Credentials.schema : Schema := .fixed [("username", .any), ("password", .any)]

/-- A container. -/
def Container.schema : Schema :=
  .short "image" [("image", .any), ("credentials", Credentials.schema), ("env", .any),
    ("ports", .any), ("volumes", .any), ("options", .any)]

/-! ### Strategies -/

/-- A strategy.  A matrix may have any keys, and none of its values has a fixed key. -/
def Strategy.schema : Schema :=
  .fixed [("matrix", .any), ("fail-fast", .plain), ("max-parallel", .plain)]

/-! ### Triggers -/

/-- The filters of a webhook. -/
def WebhookTrigger.schema : Schema :=
  .fixed [("types", .texts), ("branches", .texts), ("branches-ignore", .texts), ("tags", .texts),
    ("tags-ignore", .texts), ("paths", .texts), ("paths-ignore", .texts), ("workflows", .texts)]

/-- One time of a schedule. -/
def ScheduleTrigger.timeSchema : Schema := .fixed [("cron", .any)]

/-- An input that is asked for when a workflow is started by hand. -/
def DispatchInput.schema : Schema :=
  .fixed [("description", .any), ("required", .plain), ("default", .any), ("type", .any),
    ("options", .any)]

/-- What belongs to the trigger that fires by hand. -/
def WorkflowDispatch.schema : Schema := .fixed [("inputs", .free fun _ => DispatchInput.schema)]

/-- What belongs to the trigger that another program fires. -/
def RepositoryDispatch.schema : Schema := .fixed [("types", .texts)]

/-- What belongs to a trigger of this name. -/
def Trigger.schema (name : String) : Schema :=
  if name = scheduleName then .items ScheduleTrigger.timeSchema
  else if name = workflowDispatchName then WorkflowDispatch.schema
  else if name = repositoryDispatchName then RepositoryDispatch.schema
  else WebhookTrigger.schema

/-- The triggers of a workflow. -/
def Trigger.listSchema : Schema := .free Trigger.schema

/-! ### Jobs and workflows -/

/-- A step. -/
def Step.schema : Schema :=
  .fixed [("id", .any), ("if", .any), ("name", .any), ("run", .any), ("uses", .any),
    ("with", .any), ("shell", .any), ("working-directory", .any), ("env", .any),
    ("continue-on-error", .plain), ("timeout-minutes", .plain)]

/-- A job. -/
def Job.schema : Schema :=
  .owner [("name", .any), ("needs", .texts), ("runs-on", .labels), ("permissions", .any),
    ("environment", Environment.schema), ("concurrency", Concurrency.schema), ("outputs", .any),
    ("env", .any), ("defaults", Defaults.schema), ("if", .any), ("steps", .items Step.schema),
    ("timeout-minutes", .plain), ("strategy", Strategy.schema), ("continue-on-error", .plain),
    ("container", Container.schema), ("services", .free fun _ => Container.schema)]

/-- A workflow. -/
def Workflow.schema : Schema :=
  .owner [("name", .any), ("run-name", .any), ("on", Trigger.listSchema), ("permissions", .any),
    ("env", .any), ("defaults", Defaults.schema), ("concurrency", Concurrency.schema),
    ("jobs", .free fun _ => Job.schema)]

end WorkflowTree
