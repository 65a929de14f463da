import WorkflowTree.Proofs.Reading.Related
import WorkflowTree.Workflow
import Mathlib.Data.List.Forall2
import Mathlib.Data.Option.Defs

/-!
# Workflows that differ in the order of their collections

Two workflows are the same (`Workflow.Same`) if they are equal once their keyed collections are
taken as finite maps, at all depths.  Each relation says this for one kind of part: collections are
compared key by key, lists element by element, parts that hold collections by their own relation,
and the rest is equal.
-/

namespace WorkflowTree

variable {α : Type}

/-- Two collections have the same keys, and what stands under a key is the same. -/
def Keyed.SameBy (same : α → α → Prop) (m n : Keyed α) : Prop :=
  ∀ key, Option.Rel same (m.find? key) (n.find? key)

/-- The same grants. -/
inductive Grants.Same : Grants → Grants → Prop
  | all (g : Grant) : Same (.all g) (.all g)
  | scopes {gs gs' : Keyed Grant} : gs.Same gs' → Same (.scopes gs) (.scopes gs')

/-- The same permissions. -/
structure Permissions.Same (p q : Permissions) : Prop where
  grants : p.grants.Same q.grants
  rest : { p with grants := q.grants } = q

/-- The same container. -/
structure Container.Same (c d : Container) : Prop where
  env : c.env.Same d.env
  rest : { c with env := d.env } = d

/-- The same container beside a job. -/
structure Service.Same (s t : Service) : Prop where
  container : s.container.Same t.container
  rest : { s with container := t.container } = t

/-- The same matrix. -/
structure Matrix.Same (m n : Matrix) : Prop where
  rows : m.rows.Same n.rows
  included : List.Forall₂ Keyed.Same m.included n.included
  excluded : List.Forall₂ Keyed.Same m.excluded n.excluded
  rest : { m with rows := n.rows, included := n.included, excluded := n.excluded } = n

/-- The same strategy. -/
structure Strategy.Same (s t : Strategy) : Prop where
  matrix : Option.Rel Matrix.Same s.matrix t.matrix
  rest : { s with matrix := t.matrix } = t

/-- The same action, with the same inputs. -/
structure ActionUse.Same (a b : ActionUse) : Prop where
  inputs : a.inputs.Same b.inputs
  rest : { a with inputs := b.inputs } = b

/-- The same thing done by a step. -/
inductive Exec.Same : Exec → Exec → Prop
  | run (r : ScriptRun) : Same (.run r) (.run r)
  | action {a b : ActionUse} : a.Same b → Same (.action a) (.action b)

/-- The same step. -/
structure Step.Same (s t : Step) : Prop where
  exec : s.exec.Same t.exec
  env : s.env.Same t.env
  rest : { s with exec := t.exec, env := t.env } = t

/-- The same job. -/
structure Job.Same (i j : Job) : Prop where
  permissions : Option.Rel Permissions.Same i.permissions j.permissions
  outputs : i.outputs.Same j.outputs
  env : i.env.Same j.env
  steps : List.Forall₂ Step.Same i.steps j.steps
  strategy : Option.Rel Strategy.Same i.strategy j.strategy
  container : Option.Rel Container.Same i.container j.container
  services : i.services.SameBy Service.Same j.services
  rest : { i with
    permissions := j.permissions, outputs := j.outputs, env := j.env, steps := j.steps,
    strategy := j.strategy, container := j.container, services := j.services } = j

/-- The same trigger that fires by hand. -/
structure WorkflowDispatch.Same (t u : WorkflowDispatch) : Prop where
  inputs : t.inputs.Same u.inputs
  rest : { t with inputs := u.inputs } = u

/-- The same trigger. -/
inductive Trigger.Same : Trigger → Trigger → Prop
  | webhook (t : WebhookTrigger) : Same (.webhook t) (.webhook t)
  | schedule (t : ScheduleTrigger) : Same (.schedule t) (.schedule t)
  | repositoryDispatch (t : RepositoryDispatch) :
      Same (.repositoryDispatch t) (.repositoryDispatch t)
  | workflowDispatch {t u : WorkflowDispatch} : t.Same u →
      Same (.workflowDispatch t) (.workflowDispatch u)

/-- The same workflow. -/
structure Workflow.Same (v w : Workflow) : Prop where
  triggers : List.Forall₂ Trigger.Same v.triggers w.triggers
  permissions : Option.Rel Permissions.Same v.permissions w.permissions
  env : v.env.Same w.env
  jobs : v.jobs.SameBy Job.Same w.jobs
  rest : { v with
    triggers := w.triggers, permissions := w.permissions, env := w.env, jobs := w.jobs } = w

/-! ### What is the same agrees outside its collections -/

theorem Keyed.NamedBy.of_sameBy {name : α → String} {same : α → α → Prop} {m n : Keyed α}
    (h : m.NamedBy name) (hmn : m.SameBy same n) (hname : ∀ a b, same a b → name a = name b) :
    n.NamedBy name := by
  intro key b hb
  obtain ⟨a, ha, hab⟩ := exists_of_optionRel_some (hb ▸ hmn key)
  rw [← hname a b hab]
  exact h key a ha

theorem ActionUse.Same.entrypoint_eq {a b : ActionUse} (h : a.Same b) :
    a.entrypoint = b.entrypoint := (congrArg ActionUse.entrypoint h.rest :)

theorem ActionUse.Same.args_eq {a b : ActionUse} (h : a.Same b) : a.args = b.args :=
  (congrArg ActionUse.args h.rest :)

theorem Service.Same.name_eq {s t : Service} (h : s.Same t) : s.name = t.name :=
  (congrArg Service.name h.rest :)

theorem Job.Same.id_eq {i j : Job} (h : i.Same j) : i.id = j.id := (congrArg Job.id h.rest :)

theorem Job.Same.pos_eq {i j : Job} (h : i.Same j) : i.pos = j.pos := (congrArg Job.pos h.rest :)

/-! ### Each part is the same as itself -/

theorem Keyed.SameBy.refl {same : α → α → Prop} (h : ∀ a, same a a) (m : Keyed α) :
    m.SameBy same m := fun key => optionRel_refl h (m.find? key)

theorem Grants.Same.refl (g : Grants) : g.Same g := by
  cases g with
  | all g => exact .all g
  | scopes gs => exact .scopes (Keyed.Same.refl gs)

theorem Permissions.Same.refl (p : Permissions) : p.Same p := ⟨.refl _, rfl⟩

theorem Container.Same.refl (c : Container) : c.Same c := ⟨.refl _, rfl⟩

theorem Service.Same.refl (s : Service) : s.Same s := ⟨.refl _, rfl⟩

theorem Matrix.Same.refl (m : Matrix) : m.Same m where
  rows := .refl _
  included := List.forall₂_same.mpr fun run _ => Keyed.Same.refl run
  excluded := List.forall₂_same.mpr fun run _ => Keyed.Same.refl run
  rest := rfl

theorem Strategy.Same.refl (s : Strategy) : s.Same s := ⟨optionRel_refl .refl _, rfl⟩

theorem Exec.Same.refl (e : Exec) : e.Same e := by
  cases e with
  | run r => exact .run r
  | action a => exact .action ⟨.refl _, rfl⟩

theorem Step.Same.refl (s : Step) : s.Same s := ⟨.refl _, .refl _, rfl⟩

theorem Job.Same.refl (j : Job) : j.Same j where
  permissions := optionRel_refl .refl _
  outputs := .refl _
  env := .refl _
  steps := List.forall₂_same.mpr fun s _ => .refl s
  strategy := optionRel_refl .refl _
  container := optionRel_refl .refl _
  services := .refl .refl _
  rest := rfl

theorem Trigger.Same.refl (t : Trigger) : t.Same t := by
  cases t with
  | webhook t => exact .webhook t
  | schedule t => exact .schedule t
  | repositoryDispatch t => exact .repositoryDispatch t
  | workflowDispatch t => exact .workflowDispatch ⟨.refl _, rfl⟩

theorem Workflow.Same.refl (w : Workflow) : w.Same w where
  triggers := List.forall₂_same.mpr fun t _ => .refl t
  permissions := optionRel_refl .refl _
  env := .refl _
  jobs := .refl .refl _
  rest := rfl

end WorkflowTree
