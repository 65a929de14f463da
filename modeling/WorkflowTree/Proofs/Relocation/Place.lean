import WorkflowTree.Node
import WorkflowTree.Problem
import WorkflowTree.Reading.Section
import WorkflowTree.Reading.Strategy
import WorkflowTree.Workflow
import Mathlib.Data.List.Basic

/-!
# Moving a text to other places

A *relocation* (`Relocation`) gives each place of a text another one and keeps the reading order.
What holds places is relocated by relocating all of them (`Placed.relocate`): nodes, problems,
workflows and all that they are made of.  Nothing else of them changes.

Relocating keeps the order of any two places (`Relocation.before_eq`, `Relocation.le_eq`), so it goes
well with sorting by place (`Problem.sort_relocate`).
-/

namespace WorkflowTree

variable {α β : Type}

/-! ### Relocations -/

/-- Other places for the places of a text, in the same reading order. -/
structure Relocation where
  toFun : Position → Position
  before_of_before : ∀ p q : Position, p.before q = true → (toFun p).before (toFun q) = true

namespace Relocation

instance : CoeFun Relocation fun _ => Position → Position := ⟨toFun⟩

/-- All places so many lines further down, as behind a header. -/
def down (lines : Nat) : Relocation where
  toFun pos := { pos with line := pos.line + lines }
  before_of_before := by
    intro p q h
    rw [Position.before_iff] at h ⊢
    dsimp only
    omega

theorem before_eq (f : Relocation) (p q : Position) : (f p).before (f q) = p.before q := by
  rcases h : p.before q with - | -
  · -- the places are the same, or the other one is first
    have hle : q.le p = true := by
      rw [Position.before_eq_not_le] at h
      simpa using h
    have hle' : (f q).le (f p) = true := by
      by_cases heq : q = p
      · rw [heq, Position.le_refl]
      · have hbefore : q.before p = true := by
          rw [Position.before_eq_not_le, Bool.not_eq_true', Bool.eq_false_iff]
          intro hpq
          exact heq (Position.le_antisymm hle hpq)
        have hmoved := f.before_of_before q p hbefore
        rw [Position.before_iff] at hmoved
        rw [Position.le_iff]
        omega
    rw [Position.before_eq_not_le, hle', Bool.not_true]
  · exact f.before_of_before p q h

theorem le_eq (f : Relocation) (p q : Position) : (f p).le (f q) = p.le q := by
  have h := f.before_eq q p
  rw [Position.before_eq_not_le, Position.before_eq_not_le] at h
  exact Bool.not_inj h

theorem later_eq (f : Relocation) (p q : Position) : (f p).later (f q) = f (p.later q) := by
  unfold Position.later
  rw [f.le_eq]
  split <;> rfl

end Relocation

/-! ### Things that hold places -/

/-- Things that hold places. -/
class Placed (α : Type) where
  /-- The same thing at other places. -/
  relocate : Relocation → α → α

export Placed (relocate)

section Generic

instance : Placed Position := ⟨fun f pos => f pos⟩

instance : Placed (Located α) := ⟨fun f x => ⟨x.value, f x.pos⟩⟩

variable [Placed α] [Placed β]

instance : Placed (Option α) := ⟨fun f o => o.map (relocate f)⟩

instance : Placed (List α) := ⟨fun f as => as.map (relocate f)⟩

instance : Placed (α × β) := ⟨fun f (a, b) => (relocate f a, relocate f b)⟩

instance : Placed (Except α β) :=
  ⟨fun
    | f, .error a => .error (relocate f a)
    | f, .ok b => .ok (relocate f b)⟩

instance : Placed (Keyed α) := ⟨fun f m => m.filterMap fun _ a => some (relocate f a)⟩

end Generic

section Settings

instance : Placed Assignment := ⟨fun f ⟨name, value⟩ => ⟨relocate f name, relocate f value⟩⟩

instance : Placed Grant :=
  ⟨fun f ⟨name, access, pos⟩ => ⟨relocate f name, access, relocate f pos⟩⟩

instance : Placed Grants :=
  ⟨fun
    | f, .all g => .all (relocate f g)
    | f, .scopes gs => .scopes (relocate f gs)⟩

instance : Placed Permissions := ⟨fun f ⟨grants, pos⟩ => ⟨relocate f grants, relocate f pos⟩⟩

instance : Placed ScriptDefaults :=
  ⟨fun f ⟨shell, workingDirectory, pos⟩ =>
    ⟨relocate f shell, relocate f workingDirectory, relocate f pos⟩⟩

instance : Placed Defaults := ⟨fun f ⟨run, pos⟩ => ⟨relocate f run, relocate f pos⟩⟩

instance : Placed Concurrency :=
  ⟨fun f ⟨group, cancelInProgress, pos⟩ =>
    ⟨relocate f group, relocate f cancelInProgress, relocate f pos⟩⟩

instance : Placed Environment :=
  ⟨fun f ⟨name, url, pos⟩ => ⟨relocate f name, relocate f url, relocate f pos⟩⟩

instance : Placed Credentials :=
  ⟨fun f ⟨username, password, pos⟩ =>
    ⟨relocate f username, relocate f password, relocate f pos⟩⟩

instance : Placed Container :=
  ⟨fun f ⟨image, credentials, env, ports, volumes, options, pos⟩ =>
    ⟨relocate f image, relocate f credentials, relocate f env, relocate f ports,
      relocate f volumes, relocate f options, relocate f pos⟩⟩

instance : Placed Service :=
  ⟨fun f ⟨name, container⟩ => ⟨relocate f name, relocate f container⟩⟩

instance : Placed MatrixRow := ⟨fun f ⟨name, values⟩ => ⟨relocate f name, relocate f values⟩⟩

instance : Placed Matrix :=
  ⟨fun f ⟨rows, included, excluded, pos⟩ =>
    ⟨relocate f rows, relocate f included, relocate f excluded, relocate f pos⟩⟩

instance : Placed Strategy :=
  ⟨fun f ⟨matrix, failFast, maxParallel, pos⟩ =>
    ⟨relocate f matrix, relocate f failFast, relocate f maxParallel, relocate f pos⟩⟩

end Settings

section Triggers

instance : Placed WebhookTrigger :=
  ⟨fun f ⟨hook, types, branches, branchesIgnore, tags, tagsIgnore, paths, pathsIgnore, workflows,
      pos⟩ =>
    ⟨relocate f hook, relocate f types, relocate f branches, relocate f branchesIgnore,
      relocate f tags, relocate f tagsIgnore, relocate f paths, relocate f pathsIgnore,
      relocate f workflows, relocate f pos⟩⟩

instance : Placed ScheduleTrigger := ⟨fun f ⟨cron, pos⟩ => ⟨relocate f cron, relocate f pos⟩⟩

instance : Placed DispatchInput :=
  ⟨fun f ⟨name, description, required, fallback, type, options⟩ =>
    ⟨relocate f name, relocate f description, relocate f required, relocate f fallback,
      relocate f type, relocate f options⟩⟩

instance : Placed WorkflowDispatch :=
  ⟨fun f ⟨inputs, pos⟩ => ⟨relocate f inputs, relocate f pos⟩⟩

instance : Placed RepositoryDispatch :=
  ⟨fun f ⟨types, pos⟩ => ⟨relocate f types, relocate f pos⟩⟩

instance : Placed Trigger :=
  ⟨fun
    | f, .webhook t => .webhook (relocate f t)
    | f, .schedule t => .schedule (relocate f t)
    | f, .workflowDispatch t => .workflowDispatch (relocate f t)
    | f, .repositoryDispatch t => .repositoryDispatch (relocate f t)⟩

end Triggers

section Jobs

instance : Placed Runner :=
  ⟨fun
    | f, .hosted label pos => .hosted (relocate f label) (relocate f pos)
    | f, .selfHosted labels pos => .selfHosted (relocate f labels) (relocate f pos)⟩

instance : Placed ScriptRun :=
  ⟨fun f ⟨script, shell, workingDirectory⟩ =>
    ⟨relocate f script, relocate f shell, relocate f workingDirectory⟩⟩

instance : Placed ActionUse :=
  ⟨fun f ⟨action, inputs, entrypoint, args⟩ =>
    ⟨relocate f action, relocate f inputs, relocate f entrypoint, relocate f args⟩⟩

instance : Placed Exec :=
  ⟨fun
    | f, .run r => .run (relocate f r)
    | f, .action a => .action (relocate f a)⟩

instance : Placed Step :=
  ⟨fun f ⟨id, condition, name, exec, env, continueOnError, timeout, pos⟩ =>
    ⟨relocate f id, relocate f condition, relocate f name, relocate f exec, relocate f env,
      relocate f continueOnError, relocate f timeout, relocate f pos⟩⟩

instance : Placed Job :=
  ⟨fun f ⟨id, name, needs, runsOn, permissions, environment, concurrency, outputs, env, defaults,
      condition, steps, timeout, strategy, continueOnError, container, services, pos⟩ =>
    ⟨relocate f id, relocate f name, relocate f needs, relocate f runsOn, relocate f permissions,
      relocate f environment, relocate f concurrency, relocate f outputs, relocate f env,
      relocate f defaults, relocate f condition, relocate f steps, relocate f timeout,
      relocate f strategy, relocate f continueOnError, relocate f container, relocate f services,
      relocate f pos⟩⟩

instance : Placed Workflow :=
  ⟨fun f ⟨name, runName, triggers, permissions, env, defaults, concurrency, jobs⟩ =>
    ⟨relocate f name, relocate f runName, relocate f triggers, relocate f permissions,
      relocate f env, relocate f defaults, relocate f concurrency, relocate f jobs⟩⟩

end Jobs

section Problems

instance : Placed Fault :=
  ⟨fun
    | f, .duplicate scope key first => .duplicate scope key (relocate f first)
    | _, fault => fault⟩

instance : Placed Problem := ⟨fun f ⟨fault, pos⟩ => ⟨relocate f fault, relocate f pos⟩⟩

end Problems

/-! ### Collections -/

namespace Keyed

variable [Placed α]

theorem entries_relocate (f : Relocation) (m : Keyed α) :
    (relocate f m).entries = m.entries.map fun e => (e.1, relocate f e.2) :=
  congrFun List.filterMap_eq_map' m.entries

theorem find?_relocate (f : Relocation) (m : Keyed α) (key : String) :
    (relocate f m).find? key = relocate f (m.find? key) := by
  have hfind := m.find?_filterMap (fun _ a => some (relocate f a)) key
  rcases e : m.find? key with - | a
  · rw [e] at hfind
    exact hfind
  · rw [e] at hfind
    exact hfind

/-- Values are selected and changed in the same way, wherever they stand. -/
theorem filterMap_relocate [Placed β] (f : Relocation) (m : Keyed α)
    {g g' : String → α → Option β} (h : ∀ key a, g' key (relocate f a) = relocate f (g key a)) :
    (relocate f m).filterMap g' = relocate f (m.filterMap g) := by
  apply eq_of_entries
  rw [entries_relocate]
  unfold filterMap
  dsimp only
  rw [entries_relocate, List.filterMap_map, List.map_filterMap]
  congr 1
  funext e
  rw [Function.comp_apply, h]
  rcases g e.1 e.2 with - | b <;> rfl

end Keyed

/-! ### Nodes -/

namespace Node

mutual

/-- The same node at other places. -/
def relocate (f : Relocation) : Node → Node
  | null pos => null (f pos)
  | scalar text plain pos => scalar text plain (f pos)
  | sequence items pos => sequence (relocateItems f items) (f pos)
  | mapping entries pos => mapping (relocateEntries f entries) (f pos)

/-- The same items at other places. -/
def relocateItems (f : Relocation) : List Node → List Node
  | [] => []
  | i :: items => i.relocate f :: relocateItems f items

/-- The same entries at other places. -/
def relocateEntries (f : Relocation) : List (Node × Node) → List (Node × Node)
  | [] => []
  | (k, v) :: entries => (k.relocate f, v.relocate f) :: relocateEntries f entries

end

instance : Placed Node := ⟨relocate⟩

variable (f : Relocation)

theorem relocateItems_eq (items : List Node) : relocateItems f items = Placed.relocate f items := by
  induction items with
  | nil => rw [relocateItems]; rfl
  | cons i items ih => rw [relocateItems, ih]; rfl

theorem relocateEntries_eq (entries : List (Node × Node)) :
    relocateEntries f entries = Placed.relocate f entries := by
  induction entries with
  | nil => rw [relocateEntries]; rfl
  | cons e entries ih => rw [relocateEntries, ih]; rfl

/-! #### Views -/

variable (n : Node)

@[simp] theorem pos_relocate : (n.relocate f).pos = f n.pos := by
  cases n <;> rw [relocate] <;> rfl

@[simp] theorem isNull_relocate : (n.relocate f).isNull = n.isNull := by
  cases n <;> rw [relocate] <;> rfl

@[simp] theorem text?_relocate : (n.relocate f).text? = n.text? := by
  cases n <;> rw [relocate] <;> rfl

@[simp] theorem plain?_relocate : (n.relocate f).plain? = n.plain? := by
  rcases n with _ | ⟨text, _ | _, pos⟩ | _ | _ <;> rw [relocate] <;> rfl

@[simp] theorem leaf?_relocate : (n.relocate f).leaf? = Placed.relocate f n.leaf? := by
  cases n <;> rw [relocate] <;> rfl

@[simp] theorem items?_relocate : (n.relocate f).items? = Placed.relocate f n.items? := by
  cases n with
  | sequence items pos => rw [relocate, relocateItems_eq]; rfl
  | _ => rw [relocate]; rfl

@[simp] theorem entries?_relocate : (n.relocate f).entries? = Placed.relocate f n.entries? := by
  cases n with
  | mapping entries pos => rw [relocate, relocateEntries_eq]; rfl
  | _ => rw [relocate]; rfl

@[simp] theorem describe_relocate : (n.relocate f).describe = n.describe := by
  rcases n with _ | ⟨text, _ | _, pos⟩ | _ | _ <;> rw [relocate] <;> rfl

end Node

/-! ### Keeping and sorting problems -/

theorem Policy.keep_relocate [Placed α] (policy : Policy) (f : Relocation) (found : List α) :
    policy.keep (relocate f found) = relocate f (policy.keep found) := by
  unfold Policy.keep
  split
  · rfl
  · exact List.map_take.symm

theorem Problem.sort_relocate (f : Relocation) (ps : List Problem) :
    Problem.sort (relocate f ps) = relocate f (Problem.sort ps) := by
  unfold Problem.sort
  -- sorting looks at the places alone, and only at how two of them compare
  refine (List.map_mergeSort fun p _ q _ => ?_).symm
  exact (f.le_eq p.pos q.pos).symm

end WorkflowTree
