import WorkflowTree.Proofs.Simulation.Replaced

/-!
# Short forms

A text may stand in place of a sequence that has it as its only item, or of a mapping that has it
under its only key: the filters of triggers, the needs and the runner of a job, concurrency groups,
environments and containers may be written so.  Which node is the long form of which one is said
by `Schema.LongForm`, and where a part has a short form is said by the schema of workflows.

A file means the same if any of its short forms are written out (`Workflow.parse_of_longForms`).
-/

namespace WorkflowTree.Workflow

open Relation

/-- **Short forms are only shorter**: the result of parsing a file stays the same when any short
forms in it are replaced by their long forms. -/
theorem parse_of_longForms (policy : Policy) {root root' : Node}
    (h : ReflTransGen (Node.Replaced Schema.LongForm Workflow.schema) root root') :
    parse policy root' = parse policy root :=
  parse_of_replaced .inl h

/-- A workflow that is triggered by branches, belongs to a concurrency group and has one job. -/
def delivery (branches group runner : Node) : Node :=
  .mapping [
    (.scalar "on" true ⟨1, 1⟩, .mapping [(.scalar "push" true ⟨2, 3⟩,
      .mapping [(.scalar "branches" true ⟨3, 5⟩, branches)] ⟨3, 5⟩)] ⟨2, 3⟩),
    (.scalar "concurrency" true ⟨4, 1⟩, group),
    (.scalar "jobs" true ⟨5, 1⟩, .mapping [(.scalar "ship" true ⟨6, 3⟩, .mapping [
      (.scalar "runs-on" true ⟨7, 5⟩, runner),
      (.scalar "steps" true ⟨8, 5⟩, .sequence [] ⟨8, 12⟩)] ⟨7, 5⟩)] ⟨6, 3⟩)] ⟨1, 1⟩

/-- The workflow is accepted with three short forms, and it is the same written out. -/
theorem parse_delivery :
    ∃ w, parse {} (delivery (.scalar "main" true ⟨3, 15⟩) (.scalar "release" true ⟨4, 14⟩)
        (.scalar "linux" true ⟨7, 14⟩)) = .ok w ∧
      parse {} (delivery (.sequence [.scalar "main" true ⟨3, 15⟩] ⟨3, 14⟩)
        (.mapping [(.scalar "group" true ⟨4, 14⟩, .scalar "release" true ⟨4, 14⟩)] ⟨4, 14⟩)
        (.sequence [.scalar "linux" true ⟨7, 14⟩] ⟨7, 14⟩)) = .ok w := by
  have hbranches : ∀ {v v'} group runner, Schema.texts.LongForm v v' →
      (delivery v group runner).Replaced Schema.LongForm schema (delivery v' group runner) :=
    fun group runner h => .value [] _ _ rfl rfl
      (.value [] [] _ rfl rfl (.value [] [] _ rfl rfl (.here h)))
  have hgroup : ∀ {v v'} branches runner, Concurrency.schema.LongForm v v' →
      (delivery branches v runner).Replaced Schema.LongForm schema (delivery branches v' runner) :=
    fun branches runner h => .value [_] _ _ rfl rfl (.here h)
  have hrunner : ∀ {v v'} branches group, Schema.labels.LongForm v v' →
      (delivery branches group v).Replaced Schema.LongForm schema (delivery branches group v') :=
    fun branches group h => .value [_, _] [] _ rfl rfl
      (.value [] [] _ rfl rfl (.value [] _ _ rfl rfl (.here h)))
  have haccepted := exists_parse_iff_clean.mpr (List.isEmpty_iff.mp (by decide +kernel :
    (read {} (delivery (.scalar "main" true ⟨3, 15⟩) (.scalar "release" true ⟨4, 14⟩)
      (.scalar "linux" true ⟨7, 14⟩))).problems.isEmpty = true))
  obtain ⟨w, hw⟩ := haccepted
  refine ⟨w, hw, (parse_of_longForms {} ?_).trans hw⟩
  exact ((ReflTransGen.single (hbranches _ _ ⟨⟨_, rfl⟩, _, rfl⟩)).tail
    (hgroup _ _ ⟨⟨_, rfl⟩, _, rfl, rfl⟩)).tail (hrunner _ _ ⟨⟨_, rfl⟩, rfl⟩)

end WorkflowTree.Workflow
