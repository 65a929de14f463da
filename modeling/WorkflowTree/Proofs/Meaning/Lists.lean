import WorkflowTree.Proofs.Meaning.Workflow

/-!
# Lists keep their order

Where order matters, a workflow has lists.  Each list of a workflow that was read is its sequence,
item for item (`Workflow.lists_of_parse`): nothing is left out, repeated or moved.  The relation
between lists and sequences is `List.Forall₂`, so the lengths agree, and what stands at an index of
the one is what the item at this index of the other means.

A list that may be written as one text alone has that text as its only element; without its key, a
list that may be left out is empty.  The one list from which something is removed is that of the
labels of a self-hosted runner, which lacks the label that says that it is one.
-/

namespace WorkflowTree

variable {n : Node}

/-! ### The lists of a workflow -/

/-- The lists of a container. -/
structure Container.ListsFrom (n : Node) (c : Container) : Prop where
  ports : MeansOr [] MeansTexts (n.get? "ports") c.ports
  volumes : MeansOr [] MeansTexts (n.get? "volumes") c.volumes

/-- The lists of a matrix. -/
structure Matrix.ListsFrom (n : Node) (m : Matrix) : Prop where
  rows : MeansKeyedBut ["include", "exclude"] (fun e r => MeansTexts e.value r.values) n m.rows
  included : MeansOr [] (MeansList MeansAssignments) (n.get? "include") m.included
  excluded : MeansOr [] (MeansList MeansAssignments) (n.get? "exclude") m.excluded

/-- The labels of a runner. -/
inductive Runner.ListsFrom (n : Node) : Runner → Prop
  | hosted {label : Text} {pos : Position} : MeansTextOrTexts n [label] →
      ListsFrom n (.hosted label pos)
  | selfHosted {labels : List Text} {pos : Position} : MeansTextOrTexts n labels →
      ListsFrom n (.selfHosted (labels.filter fun l => l.value != "self-hosted") pos)

/-- The lists of a job.  Each step stands where its item stands. -/
structure Job.ListsFrom (n : Node) (j : Job) : Prop where
  needs : MeansOr [] MeansTextOrTexts (n.get? "needs") j.needs
  runsOn : n.Requires "runs-on" (Runner.ListsFrom · j.runsOn)
  steps : n.Requires "steps"
    (MeansList (fun item s => s.pos = item.pos ∧ MeansStep item s) · j.steps)
  matrix : Option.Rel Matrix.ListsFrom (n.at? ["strategy", "matrix"])
    (j.strategy.bind Strategy.matrix)
  container : Option.Rel Container.ListsFrom (n.get? "container") j.container
  services : MeansOr .empty (MeansKeyed fun e s => s.container.ListsFrom e.value)
    (n.get? "services") j.services

/-- The lists of a trigger, in what belongs to it. -/
def Trigger.BodyListsFrom (body : Option Node) : Trigger → Prop
  | webhook t => MeansFilters body t
  | schedule t => ∃ n, body = some n ∧ MeansList MeansTime n t.cron
  | repositoryDispatch t => Option.Rel MeansTextOrTexts (body.bind (·.get? "types")) t.types
  | workflowDispatch t =>
      MeansOr .empty
        (MeansKeyed fun e i => Option.Rel MeansTexts (e.value.get? "options") i.options)
        (body.bind (·.get? "inputs")) t.inputs

/-- A trigger has the text and the place of what names it, and its lists from what belongs to it. -/
structure Trigger.ListsFrom (h : Node × Option Node) (t : Trigger) : Prop where
  name : MeansText h.1 ⟨t.name, t.pos⟩
  body : t.BodyListsFrom h.2

/-- The lists of a workflow. -/
structure Workflow.ListsFrom (root : Node) (w : Workflow) : Prop where
  triggers : root.Requires "on" fun v => List.Forall₂ Trigger.ListsFrom v.hooks w.triggers
  jobs : root.Requires "jobs" (MeansKeyed (fun e j => j.ListsFrom e.value) · w.jobs)

/-! ### What is meant has its lists -/

theorem MeansContainer.lists {c : Container} (h : MeansContainer n c) : c.ListsFrom n :=
  ⟨h.ports, h.volumes⟩

theorem MeansMatrix.lists {m : Matrix} (h : MeansMatrix n m) : m.ListsFrom n :=
  ⟨h.rows.imp fun _ _ hrow => hrow.values, h.included, h.excluded⟩

theorem MeansRunner.lists {r : Runner} (h : MeansRunner n r) : r.ListsFrom n := by
  cases h with
  | hosted hlabel _ => exact .hosted hlabel
  | selfHosted hlabels _ => exact .selfHosted hlabels

theorem MeansJob.lists {e : Entry} {j : Job} (h : MeansJob e j) : j.ListsFrom e.value := by
  obtain ⟨r, hr, hrunner⟩ := h.runsOn
  obtain ⟨v, hv, hsteps⟩ := h.steps
  refine ⟨h.needs, ⟨r, hr, hrunner.lists⟩, ⟨v, hv, ?_⟩, ?_, ?_, ?_⟩
  · exact hsteps.imp fun _ _ hstep => ⟨hstep.pos, hstep⟩
  · exact optionRel_at? h.strategy fun v s hs => optionRel_imp hs.matrix fun _ _ hm => hm.lists
  · exact optionRel_imp h.container fun _ _ hc => hc.lists
  · exact h.services.imp fun _ hservices => hservices.imp fun _ _ hs => hs.container.lists

theorem MeansTrigger.name_eq {name : Text} {body : Option Node} {t : Trigger}
    (h : MeansTrigger name body t) : name = ⟨t.name, t.pos⟩ := by
  have hparts : t.name = name.value ∧ t.pos = name.pos := by
    cases h with
    | schedule hname ht => exact ⟨hname.symm, ht.pos⟩
    | workflowDispatch hname ht => exact ⟨hname.symm, ht.pos⟩
    | repositoryDispatch hname ht => exact ⟨hname.symm, ht.pos⟩
    | webhook _ ht => exact ⟨congrArg Located.value ht.hook, ht.pos⟩
  rw [hparts.1, hparts.2]

theorem MeansTrigger.bodyLists {name : Text} {body : Option Node} {t : Trigger}
    (h : MeansTrigger name body t) : t.BodyListsFrom body := by
  cases h with
  | schedule _ ht => exact ht.cron
  | repositoryDispatch _ ht => exact ht.types
  | webhook _ ht => exact ht.filters
  | workflowDispatch _ ht => exact ht.inputs.imp fun _ hm => hm.imp fun _ _ hi => hi.options

theorem MeansHook.lists {h : Node × Option Node} {t : Trigger} (ht : MeansHook h t) :
    t.ListsFrom h := by
  obtain ⟨name, hname, htrigger⟩ := ht
  rw [htrigger.name_eq] at hname
  exact ⟨hname, htrigger.bodyLists⟩

theorem MeansWorkflow.lists {w : Workflow} (h : MeansWorkflow n w) : w.ListsFrom n := by
  obtain ⟨v, hv, htriggers⟩ := h.triggers
  obtain ⟨v', hv', hjobs⟩ := h.jobs
  refine ⟨⟨v, hv, ?_⟩, ⟨v', hv', ?_⟩⟩
  · exact htriggers.imp fun _ _ => MeansHook.lists
  · exact hjobs.imp fun _ _ hj => hj.lists

namespace Workflow

/-- **Lists keep their order**: each list of a workflow that was read is its sequence in the file,
item for item. -/
theorem lists_of_parse (policy : Policy) (root : Node) (w : Workflow)
    (h : parse policy root = .ok w) : w.ListsFrom root := by
  have hmeans : MeansWorkflow root w := of_parse_eq_ok sound_read h
  exact hmeans.lists

/-- A workflow with two times, a branch and two steps on one runner with two labels. -/
def nightly : Node :=
  .mapping [
    (.scalar "on" true ⟨1, 1⟩, .mapping [
      (.scalar "schedule" true ⟨2, 3⟩, .sequence [
        .mapping [(.scalar "cron" true ⟨3, 7⟩, .scalar "0 3 * * *" true ⟨3, 13⟩)] ⟨3, 7⟩,
        .mapping [(.scalar "cron" true ⟨4, 7⟩, .scalar "0 1 * * *" true ⟨4, 13⟩)] ⟨4, 7⟩] ⟨3, 5⟩),
      (.scalar "push" true ⟨5, 3⟩, .mapping [
        (.scalar "branches" true ⟨6, 5⟩, .scalar "main" true ⟨6, 15⟩)] ⟨6, 5⟩)] ⟨2, 3⟩),
    (.scalar "jobs" true ⟨7, 1⟩, .mapping [
      (.scalar "build" true ⟨8, 3⟩, .mapping [
        (.scalar "runs-on" true ⟨9, 5⟩, .sequence [
          .scalar "self-hosted" true ⟨9, 15⟩, .scalar "linux" true ⟨9, 28⟩] ⟨9, 14⟩),
        (.scalar "steps" true ⟨10, 5⟩, .sequence [
          .mapping [(.scalar "run" true ⟨11, 9⟩, .scalar "make" true ⟨11, 14⟩)] ⟨11, 9⟩,
          .mapping [(.scalar "run" true ⟨12, 9⟩, .scalar "make" true ⟨12, 14⟩)] ⟨12, 9⟩] ⟨11, 7⟩)]
        ⟨9, 5⟩)] ⟨8, 3⟩)] ⟨1, 1⟩

theorem lists_of_nightly : ∃ w, parse {} nightly = .ok w ∧
    w.triggers.map Trigger.name = ["schedule", "push"] ∧ w.ListsFrom nightly :=
  ⟨_, rfl, rfl, lists_of_parse {} nightly _ rfl⟩

end Workflow

end WorkflowTree
