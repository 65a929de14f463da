import WorkflowTree.Proofs.Meaning.Workflow

/-!
# Collections keep their keys

Where parts are looked up by name, a workflow has keyed collections.  Each collection of a workflow
that was read has exactly the keys of its section (`Workflow.keys_of_parse`), and what is found
under a key is what the entry with this key means: it carries the key as its own name, with the
place that the key has in the file.

Two sections have keys that are not names: `with` passes two of its keys to an action on their own,
and two keys of a `matrix` stand for runs that are added or left out.
-/

namespace WorkflowTree

variable {α : Type} {n : Node}

/-! ### The keys of a collection -/

/-- A collection has exactly the keys of a section, which are texts and are not repeated, without
some that are kept apart.  Under each key stands what the entry with this key means. -/
structure Keyed.IsOf (apart : List String) (means : Entry → α → Prop) (n : Node) (m : Keyed α) :
    Prop where
  isSection : n.IsSection
  mem_keys : ∀ key, key ∈ m.keys ↔ n.Has key ∧ key ∉ apart
  entries : ∀ key a, m.find? key = some a →
    ∃ e, n.entryAt? key = some e ∧ e.key.value = key ∧ means e a

/-- A collection that may be left out, and is empty without its key. -/
def Keyed.IsOfOptional (apart : List String) (means : Entry → α → Prop) :
    Option Node → Keyed α → Prop := MeansOr .empty (IsOf apart means)

theorem MeansKeyedBut.isOf {apart : List String} {means : Entry → α → Prop} {m : Keyed α}
    (h : MeansKeyedBut apart means n m) : m.IsOf apart means n := by
  refine ⟨h.isSection, fun key => ?_, fun key a ha => ?_⟩
  · have hfind : key ∈ m.keys ↔ m.find? key ≠ none := by
      rw [Ne, Keyed.find?_eq_none, not_not]
    rw [hfind, Node.Has, ← n.map_value_entryAt? key]
    have hrel := h.rel key
    -- a key that is kept apart is not one of the collection, whether it is there or not
    by_cases hkey : key ∈ apart
    · rw [if_pos hkey] at hrel
      obtain ⟨-, hm⟩ | ⟨_, _, hnone, -, -⟩ := optionRel_cases hrel
      · simp [hkey, hm]
      · cases hnone
    · rw [if_neg hkey] at hrel
      obtain ⟨hn, hm⟩ | ⟨e, a, hn, hm, -⟩ := optionRel_cases hrel
      · simp [hn, hm]
      · simp [hkey, hn, hm]
  · obtain ⟨e, he, hmeans⟩ := exists_of_optionRel_some (ha ▸ h.rel key)
    obtain ⟨-, hentry⟩ := Option.ite_none_left_eq_some.mp he
    exact ⟨e, hentry, Node.key_of_entryAt? hentry, hmeans⟩

theorem MeansOr.isOf {apart : List String} {means : Entry → α → Prop} {m : Keyed α}
    {o : Option Node} (h : MeansOr .empty (MeansKeyedBut apart means) o m) :
    m.IsOfOptional apart means o := h.imp fun _ => MeansKeyedBut.isOf

/-! ### The collections of a workflow -/

/-- Variables, outputs, inputs or one of the runs of a matrix. -/
def Assignments.IsOf : Node → Assignments → Prop := Keyed.IsOf [] MeansAssignment

/-- Grants for single scopes. -/
def Permissions.KeysFrom (n : Node) (p : Permissions) : Prop :=
  ∀ gs, p.scopes? = some gs → gs.IsOf [] MeansGrant n

/-- The variables of a container. -/
def Container.KeysFrom (n : Node) (c : Container) : Prop :=
  c.env.IsOfOptional [] MeansAssignment (n.get? "env")

/-- The rows of a matrix, and the runs that two of its keys stand for. -/
structure Matrix.KeysFrom (n : Node) (m : Matrix) : Prop where
  rows : m.rows.IsOf ["include", "exclude"] MeansRow n
  included : MeansOr [] (MeansList Assignments.IsOf) (n.get? "include") m.included
  excluded : MeansOr [] (MeansList Assignments.IsOf) (n.get? "exclude") m.excluded

/-- What is passed to an action. -/
structure ActionUse.KeysFrom (n : Node) (a : ActionUse) : Prop where
  inputs : a.inputs.IsOfOptional ["entrypoint", "args"] MeansAssignment (n.get? "with")
  entrypoint : Option.Rel MeansText (n.at? ["with", "entrypoint"]) a.entrypoint
  args : Option.Rel MeansText (n.at? ["with", "args"]) a.args

/-- The variables of a step, and what it passes to an action. -/
structure Step.KeysFrom (n : Node) (s : Step) : Prop where
  env : s.env.IsOfOptional [] MeansAssignment (n.get? "env")
  action : ∀ a, s.exec = .action a → a.KeysFrom n

/-- The collections of a job. -/
structure Job.KeysFrom (n : Node) (j : Job) : Prop where
  permissions : Option.Rel Permissions.KeysFrom (n.get? "permissions") j.permissions
  outputs : j.outputs.IsOfOptional [] MeansAssignment (n.get? "outputs")
  env : j.env.IsOfOptional [] MeansAssignment (n.get? "env")
  steps : n.Requires "steps" (MeansList Step.KeysFrom · j.steps)
  matrix : Option.Rel Matrix.KeysFrom (n.at? ["strategy", "matrix"])
    (j.strategy.bind Strategy.matrix)
  container : Option.Rel Container.KeysFrom (n.get? "container") j.container
  services : j.services.IsOfOptional []
    (fun e s => MeansService e s ∧ s.container.KeysFrom e.value) (n.get? "services")

/-- The inputs that a trigger asks for. -/
def Trigger.KeysFrom (h : Node × Option Node) (t : Trigger) : Prop :=
  ∀ d, t = .workflowDispatch d →
    d.inputs.IsOfOptional [] MeansDispatchInput (h.2.bind (·.get? "inputs"))

/-- The collections of a workflow. -/
structure Workflow.KeysFrom (root : Node) (w : Workflow) : Prop where
  triggers : root.Requires "on" fun v => List.Forall₂ Trigger.KeysFrom v.hooks w.triggers
  permissions : Option.Rel Permissions.KeysFrom (root.get? "permissions") w.permissions
  env : w.env.IsOfOptional [] MeansAssignment (root.get? "env")
  jobs : root.Requires "jobs" (w.jobs.IsOf [] fun e j => MeansJob e j ∧ j.KeysFrom e.value)

/-! ### What is meant has its keys -/

theorem MeansPermissions.keys {p : Permissions} (h : MeansPermissions n p) : p.KeysFrom n := by
  rcases p with ⟨grants, pos⟩
  obtain ⟨hgrants, -⟩ := h
  intro gs hgs
  cases hgrants with
  | readAll _ => cases hgs
  | writeAll _ => cases hgs
  | scopes _ hscopes =>
    cases hgs
    exact hscopes.isOf

theorem MeansContainer.keys {c : Container} (h : MeansContainer n c) : c.KeysFrom n := h.env.isOf

theorem MeansMatrix.keys {m : Matrix} (h : MeansMatrix n m) : m.KeysFrom n := by
  have hruns : ∀ v runs, MeansList MeansAssignments v runs → MeansList Assignments.IsOf v runs :=
    fun _ _ hruns => hruns.imp fun _ _ => MeansKeyedBut.isOf
  exact ⟨h.rows.isOf, h.included.imp fun v => hruns v _, h.excluded.imp fun v => hruns v _⟩

theorem MeansStep.keys {s : Step} (h : MeansStep n s) : s.KeysFrom n := by
  refine ⟨h.env.isOf, ?_⟩
  rintro a ha
  have hexec := ha ▸ h.exec
  cases hexec with
  | action _ ha => exact ⟨ha.inputs.isOf, ha.entrypoint, ha.args⟩

theorem MeansJob.keys {e : Entry} {j : Job} (h : MeansJob e j) : j.KeysFrom e.value := by
  obtain ⟨v, hv, hsteps⟩ := h.steps
  refine ⟨?_, h.outputs.isOf, h.env.isOf, ⟨v, hv, ?_⟩, ?_, ?_, ?_⟩
  · exact optionRel_imp h.permissions fun _ _ hp => hp.keys
  · exact hsteps.imp fun _ _ hs => hs.keys
  · exact optionRel_at? h.strategy fun v s hs => optionRel_imp hs.matrix fun _ _ hm => hm.keys
  · exact optionRel_imp h.container fun _ _ hc => hc.keys
  · exact MeansOr.isOf (h.services.imp fun _ hm => hm.imp fun _ _ hs => ⟨hs, hs.container.keys⟩)

theorem MeansHook.keys {h : Node × Option Node} {t : Trigger} (ht : MeansHook h t) :
    t.KeysFrom h := by
  rintro d rfl
  obtain ⟨name, -, htrigger⟩ := ht
  cases htrigger with
  | workflowDispatch _ hd => exact hd.inputs.isOf

theorem MeansWorkflow.keys {w : Workflow} (h : MeansWorkflow n w) : w.KeysFrom n := by
  obtain ⟨v, hv, htriggers⟩ := h.triggers
  obtain ⟨v', hv', hjobs⟩ := h.jobs
  refine ⟨⟨v, hv, ?_⟩, ?_, h.env.isOf, ⟨v', hv', ?_⟩⟩
  · exact htriggers.imp fun _ _ => MeansHook.keys
  · exact optionRel_imp h.permissions fun _ _ hp => hp.keys
  · exact MeansKeyedBut.isOf (hjobs.imp fun _ _ hj => ⟨hj, hj.keys⟩)

namespace Workflow

/-- **Collections keep their keys**: each keyed collection of a workflow that was read has the keys
of its section in the file, and under each key what the entry with this key means. -/
theorem keys_of_parse (policy : Policy) (root : Node) (w : Workflow)
    (h : parse policy root = .ok w) : w.KeysFrom root := by
  have hmeans : MeansWorkflow root w := of_parse_eq_ok sound_read h
  exact hmeans.keys

/-- A workflow with a matrix and an action, each with a key that is kept apart. -/
def packaging : Node :=
  .mapping [
    (.scalar "on" true ⟨1, 1⟩, .scalar "push" true ⟨1, 5⟩),
    (.scalar "jobs" true ⟨2, 1⟩, .mapping [
      (.scalar "build" true ⟨3, 3⟩, .mapping [
        (.scalar "runs-on" true ⟨4, 5⟩, .scalar "ubuntu-latest" true ⟨4, 14⟩),
        (.scalar "strategy" true ⟨5, 5⟩, .mapping [
          (.scalar "matrix" true ⟨6, 7⟩, .mapping [
            (.scalar "target" true ⟨7, 9⟩, .sequence [.scalar "musl" true ⟨7, 18⟩] ⟨7, 17⟩),
            (.scalar "include" true ⟨8, 9⟩, .sequence [
              .mapping [(.scalar "target" true ⟨9, 13⟩, .scalar "gnu" true ⟨9, 21⟩)] ⟨9, 13⟩]
              ⟨9, 11⟩)] ⟨7, 9⟩)] ⟨6, 7⟩),
        (.scalar "steps" true ⟨10, 5⟩, .sequence [.mapping [
          (.scalar "uses" true ⟨11, 9⟩, .scalar "docker://alpine" true ⟨11, 15⟩),
          (.scalar "with" true ⟨12, 9⟩, .mapping [
            (.scalar "args" true ⟨13, 11⟩, .scalar "-v" false ⟨13, 17⟩),
            (.scalar "path" true ⟨14, 11⟩, .scalar "dist" true ⟨14, 17⟩)] ⟨13, 11⟩)] ⟨11, 9⟩]
          ⟨11, 7⟩)] ⟨4, 5⟩)] ⟨3, 3⟩)] ⟨1, 1⟩

theorem keys_of_packaging : ∃ w, parse {} packaging = .ok w ∧ w.jobs.keys = ["build"] ∧
    w.KeysFrom packaging :=
  ⟨_, rfl, rfl, keys_of_parse {} packaging _ rfl⟩

end Workflow

end WorkflowTree
