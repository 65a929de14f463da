import WorkflowTree.Proofs.Leniency.Tolerance

/-!
# Lenient readers

Reader by reader, from the leaves to the whole workflow: being lenient is being strict and
tolerating the unknown keys that were found.  Readers that are given no policy have nothing to
tolerate.
-/

namespace WorkflowTree

open Checked

variable {α : Type}

/-! ### Readers without a policy -/

section Plain

variable (what : String) (n : Node)

@[simp] theorem tolerate_readText : (readText what n).tolerate = readText what n := by
  unfold readText
  split
  · rfl
  · exact tolerate_mismatch _ _ _

@[simp] theorem tolerate_readPlain (read? : String → Option α) (expected : String) :
    (readPlain read? expected what n).tolerate = readPlain read? expected what n := by
  unfold readPlain
  split
  · rfl
  · exact tolerate_mismatch _ _ _

@[simp] theorem tolerate_readFlag : (readFlag what n).tolerate = readFlag what n :=
  tolerate_readPlain _ _ _ _

@[simp] theorem tolerate_readCount : (readCount what n).tolerate = readCount what n :=
  tolerate_readPlain _ _ _ _

@[simp] theorem tolerate_readMinutes : (readMinutes what n).tolerate = readMinutes what n :=
  tolerate_readPlain _ _ _ _

@[simp] theorem tolerate_readTexts : (readTexts what n).tolerate = readTexts what n := by
  unfold readTexts
  split
  · simp [List.map_map, Function.comp_def]
  · exact tolerate_mismatch _ _ _

@[simp] theorem tolerate_readTextOrTexts :
    (readTextOrTexts what n).tolerate = readTextOrTexts what n := by
  unfold readTextOrTexts
  split
  · rfl
  · exact tolerate_readTexts _ _
  · exact tolerate_mismatch _ _ _

@[simp] theorem Assignment.tolerate_read (e : Entry) :
    (Assignment.read what e).tolerate = Assignment.read what e := by
  simp [Assignment.read]

@[simp] theorem tolerate_readEnv : (readEnv what n).tolerate = readEnv what n := by
  simp [readEnv]

@[simp] theorem Permissions.tolerate_readGrant (e : Entry) :
    (Permissions.readGrant e).tolerate = Permissions.readGrant e := by
  unfold readGrant
  split
  · rfl
  · exact tolerate_mismatch _ _ _

@[simp] theorem Permissions.tolerate_read :
    (Permissions.read what n).tolerate = Permissions.read what n := by
  unfold Permissions.read
  split
  · split
    · rfl
    · exact tolerate_mismatch _ _ _
  · simp
  · exact tolerate_mismatch _ _ _

@[simp] theorem Matrix.tolerate_readCombination :
    (Matrix.readCombination what n).tolerate = Matrix.readCombination what n := by
  simp [readCombination]

@[simp] theorem Matrix.tolerate_readCombinations (key : String) :
    (Matrix.readCombinations key n).tolerate = Matrix.readCombinations key n := by
  unfold readCombinations
  split
  · simp [List.map_map, Function.comp_def]
  · exact tolerate_mismatch _ _ _

@[simp] theorem Matrix.tolerate_readPart (e : Entry) :
    (Matrix.readPart e).tolerate = Matrix.readPart e := by
  unfold readPart readRow
  split <;> simp

@[simp] theorem Matrix.tolerate_read : (Matrix.read n).tolerate = Matrix.read n := by
  simp [Matrix.read, readParts]

@[simp] theorem Runner.tolerate_read : (Runner.read what n).tolerate = Runner.read what n := by
  have hlabels : (readLabels what n).tolerate = readLabels what n := by
    unfold readLabels
    split
    · rfl
    · exact tolerate_readTexts _ _
    · exact tolerate_mismatch _ _ _
  rw [Runner.read, tolerate_andThen, hlabels]
  congr 1
  funext labels
  split
  · rfl
  · exact tolerate_mismatch _ _ _

@[simp] theorem ActionUse.tolerate_readInputs :
    (ActionUse.readInputs what n).tolerate = ActionUse.readInputs what n := by
  simp [ActionUse.readInputs]

@[simp] theorem Job.tolerate_readOutputs :
    (Job.readOutputs what n).tolerate = Job.readOutputs what n := by
  simp [Job.readOutputs]

end Plain

/-! ### Settings -/

variable (policy : Policy)

@[simp] theorem ScriptDefaults.tolerate_read (n : Node) :
    (ScriptDefaults.read policy.strict n).tolerate = ScriptDefaults.read policy.lenient n := by
  simp [ScriptDefaults.read]

@[simp] theorem Defaults.tolerate_read (owner : String) (n : Node) :
    (Defaults.read policy.strict owner n).tolerate = Defaults.read policy.lenient owner n := by
  simp [Defaults.read]

@[simp] theorem Concurrency.tolerate_read (owner : String) (n : Node) :
    (Concurrency.read policy.strict owner n).tolerate =
      Concurrency.read policy.lenient owner n := by
  unfold Concurrency.read
  split
  · rfl
  · simp

@[simp] theorem Environment.tolerate_read (what : String) (n : Node) :
    (Environment.read policy.strict what n).tolerate =
      Environment.read policy.lenient what n := by
  unfold Environment.read
  split
  · rfl
  · simp

@[simp] theorem Credentials.tolerate_read (what : String) (n : Node) :
    (Credentials.read policy.strict what n).tolerate = Credentials.read policy.lenient what n := by
  simp [Credentials.read]

@[simp] theorem Container.tolerate_readFields (what : String) (s : Section) (pos : Position) :
    (Container.readFields policy.strict what s pos).tolerate =
      Container.readFields policy.lenient what s pos := by
  simp [Container.readFields]

@[simp] theorem Container.tolerate_read (what : String) (n : Node) :
    (Container.read policy.strict what n).tolerate = Container.read policy.lenient what n := by
  unfold Container.read
  split
  · rfl
  · simp

@[simp] theorem tolerate_readServices (what : String) (n : Node) :
    (readServices policy.strict what n).tolerate = readServices policy.lenient what n := by
  simp [readServices]

@[simp] theorem Strategy.tolerate_read (what : String) (n : Node) :
    (Strategy.read policy.strict what n).tolerate = Strategy.read policy.lenient what n := by
  simp [Strategy.read]

@[simp] theorem tolerate_withinBody (what : String) (body : Option Node)
    (k : Section → Checked (Option α)) :
    (withinBody what body k).tolerate = withinBody what body fun s => (k s).tolerate := by
  unfold withinBody
  split
  · rfl
  · exact Section.tolerate_within _ _ _

@[simp] theorem WebhookTrigger.tolerate_read (hook : Text) (body : Option Node) :
    (WebhookTrigger.read policy.strict hook body).tolerate =
      WebhookTrigger.read policy.lenient hook body := by
  simp [WebhookTrigger.read]

@[simp] theorem ScheduleTrigger.tolerate_readTime (n : Node) :
    (readTime policy.strict n).tolerate = readTime policy.lenient n := by
  simp [readTime]

@[simp] theorem ScheduleTrigger.tolerate_read (pos : Position) (body : Option Node) :
    (ScheduleTrigger.read policy.strict pos body).tolerate =
      ScheduleTrigger.read policy.lenient pos body := by
  unfold ScheduleTrigger.read
  split
  · rfl
  · split
    · simp [List.map_map, Function.comp_def]
    · exact tolerate_mismatch _ _ _

@[simp] theorem DispatchInput.tolerate_read (e : Entry) :
    (DispatchInput.read policy.strict e).tolerate = DispatchInput.read policy.lenient e := by
  simp [DispatchInput.read]

@[simp] theorem WorkflowDispatch.tolerate_readInputs (n : Node) :
    (readInputs policy.strict n).tolerate = readInputs policy.lenient n := by
  simp [readInputs]

@[simp] theorem WorkflowDispatch.tolerate_read (pos : Position) (body : Option Node) :
    (WorkflowDispatch.read policy.strict pos body).tolerate =
      WorkflowDispatch.read policy.lenient pos body := by
  simp [WorkflowDispatch.read]

@[simp] theorem RepositoryDispatch.tolerate_read (pos : Position) (body : Option Node) :
    (RepositoryDispatch.read policy.strict pos body).tolerate =
      RepositoryDispatch.read policy.lenient pos body := by
  simp [RepositoryDispatch.read]

@[simp] theorem Trigger.tolerate_read (hook : Text) (body : Option Node) :
    (Trigger.read policy.strict hook body).tolerate = Trigger.read policy.lenient hook body := by
  unfold Trigger.read
  rw [Policy.allowsWebhook_strict, Policy.allowsWebhook_lenient]
  split
  · simp
  split
  · simp
  split
  · simp
  split
  · simp
  · exact tolerate_refuse rfl _

@[simp] theorem Trigger.tolerate_readItem (n : Node) :
    (readItem policy.strict n).tolerate = readItem policy.lenient n := by
  unfold readItem
  split
  · exact Trigger.tolerate_read _ _ _
  · exact tolerate_mismatch _ _ _

@[simp] theorem Trigger.tolerate_readList (n : Node) :
    (readList policy.strict n).tolerate = readList policy.lenient n := by
  unfold readList
  split
  · simp
  · simp [List.map_map, Function.comp_def]
  · simp [List.map_map, Function.comp_def]

/-- Keys that exclude each other are known ones. -/
@[simp] theorem Step.tolerate_exclusive (owner : String) (first : Text) (second : α → Text)
    (as : List α) : (reportAll (as.map fun a => exclusive owner first (second a))).tolerate =
      reportAll (as.map fun a => exclusive owner first (second a)) := by
  refine Checked.ext rfl (List.filter_eq_self.mpr ?_)
  intro p hp
  obtain ⟨a, -, rfl⟩ := List.mem_map.mp hp
  rfl

@[simp] theorem Step.tolerate_readExec (owner : String) (s : Section) (pos : Position)
    (f : ExecFields) : (readExec owner s pos f).tolerate = readExec owner s pos f := by
  unfold readExec
  split
  · split <;> rfl
  · simp
  · rcases f.inputs with - | i <;> simp [-List.map_append]
  · split <;> rfl

@[simp] theorem Step.tolerate_readFields (what : String) (s : Section) (pos : Position) :
    (readFields what s pos).tolerate = readFields what s pos := by
  simp [readFields]

@[simp] theorem Step.tolerate_read (what : String) (n : Node) :
    (Step.read policy.strict what n).tolerate = Step.read policy.lenient what n := by
  simp [Step.read]

@[simp] theorem Step.tolerate_readList (owner : String) (n : Node) :
    (readList policy.strict owner n).tolerate = readList policy.lenient owner n := by
  unfold readList
  split
  · simp [List.map_map, Function.comp_def]
  · exact tolerate_mismatch _ _ _

@[simp] theorem Job.tolerate_readFields (what : String) (id : Text) (s : Section) :
    (readFields policy.strict what id s).tolerate = readFields policy.lenient what id s := by
  simp [readFields]

@[simp] theorem Job.tolerate_read (id : Text) (n : Node) :
    (Job.read policy.strict id n).tolerate = Job.read policy.lenient id n := by
  simp [Job.read]

@[simp] theorem Job.tolerate_readAll (n : Node) :
    (readAll policy.strict n).tolerate = readAll policy.lenient n := by
  simp [readAll]

@[simp] theorem Workflow.tolerate_readFields (what : String) (s : Section) :
    (readFields policy.strict what s).tolerate = readFields policy.lenient what s := by
  simp [readFields]

theorem Workflow.tolerate_read (root : Node) :
    (Workflow.read policy.strict root).tolerate = Workflow.read policy.lenient root := by
  simp [Workflow.read]

end WorkflowTree
