import WorkflowTree.Proofs.Editing.Job
import WorkflowTree.Proofs.Editing.Step
import WorkflowTree.Proofs.Editing.Workflow

/-!
# The order of edits

What a sequence of edits makes is described by its calls, which forget how edits of different kinds
are mixed.  So sequences with the same calls end alike from every start: they make the same value,
or both are refused.  They need not be refused at the same edit.

From a value that was just started, edits are refused only if a name is given twice to one keyed
part, or if a step gets what does not go with it.

The main statement is `outcome_by_calls`, for steps, jobs and workflows.
-/

namespace WorkflowTree

/-! ### Steps -/

namespace Step

variable {c : Calls} {es : List StepEdit} {script action : Text} {pos : Position}

/-- A keyed part gets a name twice. -/
def Calls.NamesTwice (c : Calls) : Prop :=
  NameTwice Assignment.name c.envs ∨ NameTwice Assignment.name c.inputs

theorem exists_edited_ofScript : (∃ s, (ofScript script pos).Edited c s) ↔
    ¬ NameTwice Assignment.name c.envs ∧ c.inputs = [] := by
  rw [exists_edited]
  apply and_congr
  · -- the environment is empty at first
    exact Keyed.exists_extendedBy_empty Assignment.name c.envs
  · simp [ofScript, Exec.Edited]

theorem exists_edited_ofAction : (∃ s, (ofAction action pos).Edited c s) ↔
    ¬ NameTwice Assignment.name c.envs ∧ c.shells = [] ∧ c.workingDirectories = [] ∧
      ¬ NameTwice Assignment.name c.inputs := by
  have hinputs := Keyed.exists_extendedBy_empty Assignment.name c.inputs
  rw [exists_edited]
  apply and_congr
  · exact Keyed.exists_extendedBy_empty Assignment.name c.envs
  · rw [← hinputs]
    simp [ofAction, Exec.Edited]

theorem refused_ofScript : Refused (editAll edit (ofScript script pos) es) ↔
    (calls es).NamesTwice ∨ (calls es).inputs ≠ [] := by
  -- inputs are refused, also if no two have one name
  have hinputs : NameTwice Assignment.name (calls es).inputs → (calls es).inputs ≠ [] := by
    intro htwice hnil
    exact not_nameTwice_nil (hnil ▸ htwice)
  simp only [describes.refused_iff, exists_edited_ofScript, Calls.NamesTwice]
  tauto

theorem refused_ofAction : Refused (editAll edit (ofAction action pos) es) ↔
    (calls es).NamesTwice ∨ (calls es).shells ≠ [] ∨ (calls es).workingDirectories ≠ [] := by
  simp only [describes.refused_iff, exists_edited_ofAction, Calls.NamesTwice]
  tauto

end Step

/-! ### Jobs -/

namespace Job

variable {es : List JobEdit} {id : Text} {runsOn : Runner}

/-- A keyed part gets a name twice. -/
def Calls.NamesTwice (c : Calls) : Prop :=
  NameTwice Assignment.name c.outputs ∨ NameTwice Assignment.name c.envs ∨
    NameTwice Service.name c.services

theorem exists_edited_ofRunner {c : Calls} :
    (∃ j, (ofRunner id runsOn).Edited c j) ↔ ¬ c.NamesTwice := by
  rw [exists_edited, Calls.NamesTwice, not_or, not_or]
  apply and_congr
  · exact Keyed.exists_extendedBy_empty Assignment.name c.outputs
  · apply and_congr
    · exact Keyed.exists_extendedBy_empty Assignment.name c.envs
    · exact Keyed.exists_extendedBy_empty Service.name c.services

theorem refused_ofRunner :
    Refused (editAll edit (ofRunner id runsOn) es) ↔ (calls es).NamesTwice := by
  simp only [describes.refused_iff, exists_edited_ofRunner, not_not]

end Job

/-! ### Workflows -/

namespace Workflow

variable {ks ks' : List WorkflowCall} {es es' : List WorkflowEdit} {t : Trigger}

/-- A keyed part gets a name twice. -/
def Calls.NamesTwice (c : Calls) : Prop :=
  NameTwice Assignment.name c.envs ∨ NameTwice Job.id c.jobs

theorem sameOutcome (w : Workflow) (hes : List.Forall₂ WorkflowCall.ComesTo ks es)
    (hes' : List.Forall₂ WorkflowCall.ComesTo ks' es') (h : calls es = calls es') :
    SameOutcome (editAll call w ks) (editAll call w ks') := by
  rw [editAll_call hes, editAll_call hes']
  exact describes.sameOutcome h

theorem exists_edited_ofTrigger {c : Calls} :
    (∃ w, (ofTrigger t).Edited c w) ↔ ¬ c.NamesTwice := by
  rw [exists_edited, Calls.NamesTwice, not_or]
  apply and_congr
  · exact Keyed.exists_extendedBy_empty Assignment.name c.envs
  · exact Keyed.exists_extendedBy_empty Job.id c.jobs

theorem refused_ofTrigger (hes : List.Forall₂ WorkflowCall.ComesTo ks es) :
    Refused (editAll call (ofTrigger t) ks) ↔ (calls es).NamesTwice := by
  rw [editAll_call hes]
  simp only [describes.refused_iff, exists_edited_ofTrigger, not_not]

end Workflow

/-! ### The outcome -/

/-- **The order of edits.**  Sequences with the same calls end alike, from every start. From a value
that was just started, a sequence is refused just if a keyed part gets a name twice or, for a step,
if there is an edit that goes with the other of scripts and actions.  Calls that build jobs count as
the edits that they come to. -/
theorem outcome_by_calls :
    (∀ (s : Step) (es es' : List StepEdit), Step.calls es = Step.calls es' →
      SameOutcome (editAll Step.edit s es) (editAll Step.edit s es')) ∧
    (∀ (j : Job) (es es' : List JobEdit), Job.calls es = Job.calls es' →
      SameOutcome (editAll Job.edit j es) (editAll Job.edit j es')) ∧
    (∀ (w : Workflow) (ks ks' : List WorkflowCall) (es es' : List WorkflowEdit),
      List.Forall₂ WorkflowCall.ComesTo ks es → List.Forall₂ WorkflowCall.ComesTo ks' es' →
      Workflow.calls es = Workflow.calls es' →
      SameOutcome (editAll Workflow.call w ks) (editAll Workflow.call w ks')) ∧
    (∀ (script : Text) (pos : Position) (es : List StepEdit),
      Refused (editAll Step.edit (.ofScript script pos) es) ↔
        (Step.calls es).NamesTwice ∨ (Step.calls es).inputs ≠ []) ∧
    (∀ (action : Text) (pos : Position) (es : List StepEdit),
      Refused (editAll Step.edit (.ofAction action pos) es) ↔
        (Step.calls es).NamesTwice ∨ (Step.calls es).shells ≠ [] ∨
          (Step.calls es).workingDirectories ≠ []) ∧
    (∀ (id : Text) (runsOn : Runner) (es : List JobEdit),
      Refused (editAll Job.edit (.ofRunner id runsOn) es) ↔ (Job.calls es).NamesTwice) ∧
    ∀ (t : Trigger) (ks : List WorkflowCall) (es : List WorkflowEdit),
      List.Forall₂ WorkflowCall.ComesTo ks es →
      (Refused (editAll Workflow.call (.ofTrigger t) ks) ↔ (Workflow.calls es).NamesTwice) := by
  refine ⟨?_, ?_, ?_, ?_, ?_, ?_, ?_⟩
  -- the same calls
  · intro s es es' h
    exact Step.describes.sameOutcome h
  · intro j es es' h
    exact Job.describes.sameOutcome h
  · intro w ks ks' es es' hes hes' h
    exact w.sameOutcome hes hes' h
  -- values that were just started
  · intro script pos es
    exact Step.refused_ofScript
  · intro action pos es
    exact Step.refused_ofAction
  · intro id runsOn es
    exact Job.refused_ofRunner
  · intro t ks es hes
    exact Workflow.refused_ofTrigger hes

/-- A shell, a variable and another shell. -/
def Step.mixedEdits : List StepEdit :=
  [.shell ⟨"sh", ⟨1, 1⟩⟩, .env ⟨"CI", ⟨2, 1⟩⟩ ⟨"1", ⟨2, 5⟩⟩, .shell ⟨"bash", ⟨3, 1⟩⟩]

/-- The shells one after the other. -/
def Step.sortedEdits : List StepEdit :=
  [.env ⟨"CI", ⟨2, 1⟩⟩ ⟨"1", ⟨2, 5⟩⟩, .shell ⟨"sh", ⟨1, 1⟩⟩, .shell ⟨"bash", ⟨3, 1⟩⟩]

/-- A job that is needed, a variable and another job that is needed. -/
def Job.mixedEdits : List JobEdit :=
  [.need ⟨"lint", ⟨1, 1⟩⟩, .env ⟨"CI", ⟨2, 1⟩⟩ ⟨"1", ⟨2, 5⟩⟩, .need ⟨"test", ⟨3, 1⟩⟩]

/-- The variable last. -/
def Job.sortedEdits : List JobEdit :=
  [.need ⟨"lint", ⟨1, 1⟩⟩, .need ⟨"test", ⟨3, 1⟩⟩, .env ⟨"CI", ⟨2, 1⟩⟩ ⟨"1", ⟨2, 5⟩⟩]

/-- A job on a hosted runner that needs another one. -/
def Job.dependent : Job :=
  { Job.ofRunner ⟨"build", ⟨4, 3⟩⟩ (.hosted ⟨"linux", ⟨5, 14⟩⟩ ⟨5, 14⟩) with
    needs := [⟨"lint", ⟨6, 12⟩⟩] }

/-- Builds the dependent job. -/
def WorkflowCall.addDependent : WorkflowCall :=
  .addBuiltJob ⟨"build", ⟨4, 3⟩⟩ (.hosted ⟨"linux", ⟨5, 14⟩⟩ ⟨5, 14⟩) fun j =>
    editAll Job.edit j [.need ⟨"lint", ⟨6, 12⟩⟩]

/-- One job is added twice, and then the workflow gets a name. -/
def Workflow.mixedCalls : List WorkflowCall :=
  [.addDependent, .edit (.job .dependent), .edit (.name ⟨"CI", ⟨1, 7⟩⟩)]

/-- The name comes first. -/
def Workflow.sortedCalls : List WorkflowCall :=
  [.edit (.name ⟨"CI", ⟨1, 7⟩⟩), .addDependent, .edit (.job .dependent)]

theorem WorkflowCall.comesTo_addDependent : addDependent.ComesTo (.job .dependent) :=
  .addBuiltJob rfl

theorem outcome_by_calls_of_mixed :
    let script := Step.ofScript ⟨"make", ⟨7, 9⟩⟩ ⟨7, 9⟩
    let start := Workflow.ofTrigger (.schedule ⟨[], ⟨2, 1⟩⟩)
    Step.calls Step.mixedEdits = Step.calls Step.sortedEdits ∧
    SameOutcome (editAll Step.edit script Step.mixedEdits)
      (editAll Step.edit script Step.sortedEdits) ∧
    Job.calls Job.mixedEdits = Job.calls Job.sortedEdits ∧
    SameOutcome (editAll Job.edit .dependent Job.mixedEdits)
      (editAll Job.edit .dependent Job.sortedEdits) ∧
    SameOutcome (editAll Workflow.call start Workflow.mixedCalls)
      (editAll Workflow.call start Workflow.sortedCalls) ∧
    Refused (editAll Workflow.call start Workflow.sortedCalls) := by
  obtain ⟨steps, jobs, workflows, -, -, -, refused⟩ := outcome_by_calls
  have hjob := WorkflowCall.comesTo_addDependent
  have hagain := WorkflowCall.ComesTo.edit (.job .dependent)
  have hname := WorkflowCall.ComesTo.edit (.name ⟨"CI", ⟨1, 7⟩⟩)
  have hmixed := List.Forall₂.cons hjob (.cons hagain (.cons hname .nil))
  have hsorted := List.Forall₂.cons hname (.cons hjob (.cons hagain .nil))
  have htwice : NameTwice Job.id [.dependent, .dependent] :=
    ⟨"build", .cons_mem List.mem_cons_self⟩
  exact ⟨rfl, steps _ _ _ rfl, rfl, jobs _ _ _ rfl, workflows _ _ _ _ _ hmixed hsorted rfl,
    (refused _ _ _ hsorted).mpr (.inr htwice)⟩

end WorkflowTree
