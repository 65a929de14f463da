import WorkflowTree.Node
import WorkflowTree.Number.Decimal
import WorkflowTree.Workflow
import Mathlib.Data.List.Basic

/-!
# Where the leaves of a workflow come from

A workflow is a tree whose leaves are texts, truth values, numbers, granted accesses and places.
`leaves` lists them, for a whole workflow and for each of its parts.  `Leaf.IsFrom` says which
node a leaf has to come from: a text is the text of a scalar at the place of the text, a truth
value or a number is what a scalar without quotes says at that place, and a place is the place of
some node.

The leaves of a structure are the leaves of its fields, of all of them.
-/

namespace WorkflowTree

variable {α β : Type}

/-! ### Parts of a node -/

/-- A node contains itself, and what the items, keys and values of a node contain, it contains
too. -/
inductive Node.Contains (root : Node) : Node → Prop
  | refl : root.Contains root
  | item {items : List Node} {pos : Position} {i : Node} :
      root.Contains (.sequence items pos) → i ∈ items → root.Contains i
  | key {entries : List (Node × Node)} {pos : Position} {e : Node × Node} :
      root.Contains (.mapping entries pos) → e ∈ entries → root.Contains e.1
  | value {entries : List (Node × Node)} {pos : Position} {e : Node × Node} :
      root.Contains (.mapping entries pos) → e ∈ entries → root.Contains e.2

/-! ### Leaves -/

/-- What workflows are made of. -/
inductive Leaf
  | text (t : Text)
  | flag (f : Flag)
  | count (c : Count)
  | minutes (m : Minutes)
  | access (a : Access)
  /-- A key of a collection. -/
  | key (k : String)
  /-- The place of a part that is not a leaf itself. -/
  | place (pos : Position)

/-- The node contains what the leaf says, where it says so. -/
def Leaf.IsFrom (root : Node) : Leaf → Prop
  | text t => ∃ plain, root.Contains (.scalar t.value plain t.pos)
  | flag f => ∃ word, root.Contains (.scalar word true f.pos) ∧
      (f.value = true ∧ word ∈ ["true", "True", "TRUE"] ∨
        f.value = false ∧ word ∈ ["false", "False", "FALSE"])
  | count c => ∃ word, root.Contains (.scalar word true c.pos) ∧ readInteger? word = some c.value
  | minutes m => ∃ word, root.Contains (.scalar word true m.pos) ∧
      readNumber? word = some m.value
  | access a => ∃ word plain pos, root.Contains (.scalar word plain pos) ∧
      (word = a.word ∨ word = a.word ++ "-all")
  | key k => ∃ plain pos, root.Contains (.scalar k plain pos)
  | place pos => ∃ n, root.Contains n ∧ n.pos = pos

/-- Things that have leaves. -/
class HasLeaves (α : Type) where
  /-- The leaves, from left to right. -/
  leaves : α → List Leaf

export HasLeaves (leaves)

section Generic

instance : HasLeaves Text := ⟨fun t => [.text t]⟩

instance : HasLeaves Flag := ⟨fun f => [.flag f]⟩

instance : HasLeaves Count := ⟨fun c => [.count c]⟩

instance : HasLeaves Minutes := ⟨fun m => [.minutes m]⟩

instance : HasLeaves Access := ⟨fun a => [.access a]⟩

instance : HasLeaves Position := ⟨fun pos => [.place pos]⟩

variable [HasLeaves α] [HasLeaves β]

instance : HasLeaves (Option α) := ⟨fun o => o.elim [] leaves⟩

instance : HasLeaves (List α) := ⟨fun as => as.flatMap leaves⟩

instance : HasLeaves (α × β) := ⟨fun (a, b) => leaves a ++ leaves b⟩

instance : HasLeaves (Keyed α) :=
  ⟨fun m => m.entries.flatMap fun (k, a) => .key k :: leaves a⟩

end Generic

section Settings

instance : HasLeaves Assignment := ⟨fun ⟨name, value⟩ => [leaves name, leaves value].flatten⟩

instance : HasLeaves Grant :=
  ⟨fun ⟨name, access, pos⟩ => [leaves name, leaves access, leaves pos].flatten⟩

instance : HasLeaves Grants :=
  ⟨fun
    | .all g => leaves g
    | .scopes gs => leaves gs⟩

instance : HasLeaves Permissions := ⟨fun ⟨grants, pos⟩ => [leaves grants, leaves pos].flatten⟩

instance : HasLeaves ScriptDefaults :=
  ⟨fun ⟨shell, workingDirectory, pos⟩ =>
    [leaves shell, leaves workingDirectory, leaves pos].flatten⟩

instance : HasLeaves Defaults := ⟨fun ⟨run, pos⟩ => [leaves run, leaves pos].flatten⟩

instance : HasLeaves Concurrency :=
  ⟨fun ⟨group, cancelInProgress, pos⟩ =>
    [leaves group, leaves cancelInProgress, leaves pos].flatten⟩

instance : HasLeaves Environment :=
  ⟨fun ⟨name, url, pos⟩ => [leaves name, leaves url, leaves pos].flatten⟩

instance : HasLeaves Credentials :=
  ⟨fun ⟨username, password, pos⟩ => [leaves username, leaves password, leaves pos].flatten⟩

instance : HasLeaves Container :=
  ⟨fun ⟨image, credentials, env, ports, volumes, options, pos⟩ =>
    [leaves image, leaves credentials, leaves env, leaves ports, leaves volumes, leaves options,
      leaves pos].flatten⟩

instance : HasLeaves Service := ⟨fun ⟨name, container⟩ => [leaves name, leaves container].flatten⟩

instance : HasLeaves MatrixRow := ⟨fun ⟨name, values⟩ => [leaves name, leaves values].flatten⟩

instance : HasLeaves Matrix :=
  ⟨fun ⟨rows, included, excluded, pos⟩ =>
    [leaves rows, leaves included, leaves excluded, leaves pos].flatten⟩

instance : HasLeaves Strategy :=
  ⟨fun ⟨matrix, failFast, maxParallel, pos⟩ =>
    [leaves matrix, leaves failFast, leaves maxParallel, leaves pos].flatten⟩

end Settings

section Triggers

instance : HasLeaves WebhookTrigger :=
  ⟨fun ⟨hook, types, branches, branchesIgnore, tags, tagsIgnore, paths, pathsIgnore, workflows,
      pos⟩ =>
    [leaves hook, leaves types, leaves branches, leaves branchesIgnore, leaves tags,
      leaves tagsIgnore, leaves paths, leaves pathsIgnore, leaves workflows, leaves pos].flatten⟩

instance : HasLeaves ScheduleTrigger := ⟨fun ⟨cron, pos⟩ => [leaves cron, leaves pos].flatten⟩

instance : HasLeaves DispatchInput :=
  ⟨fun ⟨name, description, required, fallback, type, options⟩ =>
    [leaves name, leaves description, leaves required, leaves fallback, leaves type,
      leaves options].flatten⟩

instance : HasLeaves WorkflowDispatch := ⟨fun ⟨inputs, pos⟩ => [leaves inputs, leaves pos].flatten⟩

instance : HasLeaves RepositoryDispatch := ⟨fun ⟨types, pos⟩ => [leaves types, leaves pos].flatten⟩

instance : HasLeaves Trigger :=
  ⟨fun
    | .webhook t => leaves t
    | .schedule t => leaves t
    | .workflowDispatch t => leaves t
    | .repositoryDispatch t => leaves t⟩

end Triggers

section Jobs

instance : HasLeaves Runner :=
  ⟨fun
    | .hosted label pos => [leaves label, leaves pos].flatten
    | .selfHosted labels pos => [leaves labels, leaves pos].flatten⟩

instance : HasLeaves ScriptRun :=
  ⟨fun ⟨script, shell, workingDirectory⟩ =>
    [leaves script, leaves shell, leaves workingDirectory].flatten⟩

instance : HasLeaves ActionUse :=
  ⟨fun ⟨action, inputs, entrypoint, args⟩ =>
    [leaves action, leaves inputs, leaves entrypoint, leaves args].flatten⟩

instance : HasLeaves Exec :=
  ⟨fun
    | .run r => leaves r
    | .action a => leaves a⟩

instance : HasLeaves Step :=
  ⟨fun ⟨id, condition, name, exec, env, continueOnError, timeout, pos⟩ =>
    [leaves id, leaves condition, leaves name, leaves exec, leaves env, leaves continueOnError,
      leaves timeout, leaves pos].flatten⟩

instance : HasLeaves Job :=
  ⟨fun ⟨id, name, needs, runsOn, permissions, environment, concurrency, outputs, env, defaults,
      condition, steps, timeout, strategy, continueOnError, container, services, pos⟩ =>
    [leaves id, leaves name, leaves needs, leaves runsOn, leaves permissions, leaves environment,
      leaves concurrency, leaves outputs, leaves env, leaves defaults, leaves condition,
      leaves steps, leaves timeout, leaves strategy, leaves continueOnError, leaves container,
      leaves services, leaves pos].flatten⟩

instance : HasLeaves Workflow :=
  ⟨fun ⟨name, runName, triggers, permissions, env, defaults, concurrency, jobs⟩ =>
    [leaves name, leaves runName, leaves triggers, leaves permissions, leaves env,
      leaves defaults, leaves concurrency, leaves jobs].flatten⟩

end Jobs

/-! ### Things that come from a node -/

/-- All leaves of a thing come from the node. -/
def IsFrom [HasLeaves α] (root : Node) (a : α) : Prop := ∀ l ∈ leaves a, l.IsFrom root

section IsFrom

variable [HasLeaves α] [HasLeaves β] {root : Node}

/-- What is put together from parts that come from a node comes from it. -/
theorem isFrom_flatten {lss : List (List Leaf)}
    (h : lss.Forall fun ls => ∀ l ∈ ls, l.IsFrom root) : ∀ l ∈ lss.flatten, l.IsFrom root := by
  intro l hl
  obtain ⟨ls, hls, hl⟩ := List.mem_flatten.mp hl
  exact List.forall_iff_forall_mem.mp h ls hls l hl

theorem isFrom_none : IsFrom root (none : Option α) := fun _ hl => nomatch hl

theorem isFrom_some {a : α} : IsFrom root (some a) ↔ IsFrom root a := Iff.rfl

theorem isFrom_option {o : Option α} : IsFrom root o ↔ ∀ a, o = some a → IsFrom root a := by
  rcases o with - | a
  · simp [isFrom_none]
  · simp [isFrom_some]

theorem IsFrom.bind {o : Option α} {f : α → Option β} (h : IsFrom root o)
    (hf : ∀ a, IsFrom root a → IsFrom root (f a)) : IsFrom root (o >>= f) := by
  rcases o with - | a
  · exact isFrom_none
  · exact hf a h

theorem IsFrom.map {o : Option α} {f : α → β} (h : IsFrom root o)
    (hf : ∀ a, IsFrom root a → IsFrom root (f a)) : IsFrom root (o.map f) := by
  rw [Option.map_eq_bind]
  exact h.bind hf

theorem IsFrom.getD {o : Option α} {a : α} (h : IsFrom root o) (ha : IsFrom root a) :
    IsFrom root (o.getD a) := by
  rcases o with - | b
  · exact ha
  · exact h

theorem isFrom_list {as : List α} : IsFrom root as ↔ ∀ a ∈ as, IsFrom root a := by
  unfold IsFrom
  simp only [leaves, List.mem_flatMap]
  constructor
  · intro h a ha l hl
    exact h l ⟨a, ha, hl⟩
  · rintro h l ⟨a, ha, hl⟩
    exact h a ha l hl

theorem isFrom_nil : IsFrom root ([] : List α) := isFrom_list.mpr fun _ ha => nomatch ha

theorem isFrom_prod {x : α × β} : IsFrom root x ↔ IsFrom root x.1 ∧ IsFrom root x.2 :=
  List.forall_mem_append

theorem isFrom_keyed {m : Keyed α} :
    IsFrom root m ↔ ∀ e ∈ m.entries, (Leaf.key e.1).IsFrom root ∧ IsFrom root e.2 := by
  unfold IsFrom
  simp only [leaves, List.mem_flatMap, List.mem_cons]
  constructor
  · intro h e he
    exact ⟨h _ ⟨e, he, .inl rfl⟩, fun l hl => h l ⟨e, he, .inr hl⟩⟩
  · rintro h l ⟨e, he, rfl | hl⟩
    · exact (h e he).1
    · exact (h e he).2 l hl

theorem isFrom_empty : IsFrom root (.empty : Keyed α) := isFrom_keyed.mpr fun _ he => nomatch he

theorem IsFrom.find? {m : Keyed α} (h : IsFrom root m) (key : String) :
    IsFrom root (m.find? key) :=
  isFrom_option.mpr fun _ ha => (isFrom_keyed.mp h _ (Keyed.find?_eq_some.mp ha)).2

theorem IsFrom.filterMap {m : Keyed α} {f : String → α → Option β} (h : IsFrom root m)
    (hf : ∀ k a b, f k a = some b → IsFrom root a → IsFrom root b) :
    IsFrom root (m.filterMap f) := by
  refine isFrom_keyed.mpr fun e he => ?_
  obtain ⟨⟨k, a⟩, hka, hmap⟩ := List.mem_filterMap.mp he
  obtain ⟨b, hb, rfl⟩ := Option.map_eq_some_iff.mp hmap
  obtain ⟨hk, ha⟩ := isFrom_keyed.mp h _ hka
  exact ⟨hk, hf k a b hb ha⟩

theorem isFrom_text {t : Text} :
    IsFrom root t ↔ ∃ plain, root.Contains (.scalar t.value plain t.pos) :=
  List.forall_mem_singleton

/-- Where a text stands, there is a node. -/
theorem IsFrom.pos {t : Text} (h : IsFrom root t) : IsFrom root t.pos := by
  obtain ⟨plain, hplain⟩ := isFrom_text.mp h
  exact List.forall_mem_singleton.mpr ⟨_, hplain, rfl⟩

/-- The text of a leaf that comes from a node may be a key. -/
theorem IsFrom.key {t : Text} (h : IsFrom root t) : (Leaf.key t.value).IsFrom root := by
  obtain ⟨plain, hplain⟩ := isFrom_text.mp h
  exact ⟨plain, t.pos, hplain⟩

theorem isFrom_pos {pos : Position} : IsFrom root pos ↔ ∃ n, root.Contains n ∧ n.pos = pos :=
  List.forall_mem_singleton

theorem Node.Contains.isFrom_pos {n : Node} (h : root.Contains n) : IsFrom root n.pos :=
  WorkflowTree.isFrom_pos.mpr ⟨n, h, rfl⟩

theorem Node.Contains.isFrom_leaf? {n : Node} (h : root.Contains n) : IsFrom root n.leaf? := by
  rcases n with _ | ⟨text, plain, pos⟩ | _ | _
  · exact isFrom_none
  · exact isFrom_some.mpr (isFrom_text.mpr ⟨plain, h⟩)
  · exact isFrom_none
  · exact isFrom_none

end IsFrom

end WorkflowTree
