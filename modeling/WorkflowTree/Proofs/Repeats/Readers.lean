import WorkflowTree.Proofs.Repeats.Scope
import WorkflowTree.Reading.Workflow

/-!
# What the problems of parts are about

The readers of the parts of workflows and jobs report problems about mappings that are called as
parts are, and the reader of a job also reports problems about the job.
-/

namespace WorkflowTree

open Checked Section

variable {α : Type} {P : String → Prop} {n : Node} {what owner : String} {policy : Policy}

/-! ### Leaves -/

theorem concerns_readText (what : String) (n : Node) : (readText what n).Concerns P := by
  unfold readText
  split
  · exact concerns_pure _
  · exact concerns_mismatch _ _ _

theorem concerns_readPlain (read? : String → Option α) (expected what : String) (n : Node) :
    (readPlain read? expected what n).Concerns P := by
  unfold readPlain
  split
  · exact concerns_pure _
  · exact concerns_mismatch _ _ _

theorem concerns_readFlag (what : String) (n : Node) : (readFlag what n).Concerns P :=
  concerns_readPlain _ _ what n

theorem concerns_readTexts (what : String) (n : Node) : (readTexts what n).Concerns P := by
  unfold readTexts
  split
  · exact (concerns_collect (concerns_readText _)).map
  · exact concerns_mismatch _ _ _

theorem concerns_readTextOrTexts (what : String) (n : Node) :
    (readTextOrTexts what n).Concerns P := by
  unfold readTextOrTexts
  split
  · exact concerns_pure _
  · exact concerns_readTexts what _
  · exact concerns_mismatch _ _ _

/-- Assignments are about the mapping that they are written in. -/
theorem concerns_assignments {called : Entry → String} (h : P what) :
    (within what n fun s => some <$> s.collect fun e => Assignment.read (called e) e).Concerns P :=
  concerns_free h fun e => (concerns_readText _ e.value).map

/-! ### Settings -/

theorem concerns_readEnv (h : P what) (n : Node) : (readEnv what n).Concerns P :=
  concerns_assignments h

theorem Permissions.concerns_read (owner : String) (n : Node) :
    (Permissions.read owner n).Concerns IsPartName := by
  unfold Permissions.read
  dsimp only
  split
  · split
    · exact concerns_pure _
    · exact concerns_mismatch _ _ _
  · refine (concerns_free (isPartName_key "permissions" owner) fun e => ?_).map
    unfold readGrant
    split
    · exact concerns_pure _
    · exact concerns_mismatch _ _ _
  · exact concerns_mismatch _ _ _

theorem ScriptDefaults.concerns_read (policy : Policy) (n : Node) :
    (ScriptDefaults.read policy n).Concerns IsPartName := by
  refine concerns_within (by decide) fun s => concerns_filled ?_
  refine (concerns_field (concerns_readText _)).bind fun _ => ?_
  exact (concerns_field (concerns_readText _)).bind fun _ => Form.concerns_pure _

theorem Defaults.concerns_read (policy : Policy) (owner : String) (n : Node) :
    (Defaults.read policy owner n).Concerns IsPartName := by
  refine concerns_within (isPartName_key "defaults" owner) fun s => concerns_filled ?_
  exact (concerns_field (ScriptDefaults.concerns_read policy)).bind fun _ => Form.concerns_pure _

/-- What has a short form reports nothing about that. -/
theorem concerns_leafOr {short : Text → α} {c : Checked (Option α)} (h : c.Concerns P) :
    (match n.leaf? with
      | some t => pure (some (short t))
      | none => c : Checked (Option α)).Concerns P := by
  rcases n.leaf? with - | t
  · exact h
  · exact concerns_pure _

theorem Concurrency.concerns_read (policy : Policy) (owner : String) (n : Node) :
    (Concurrency.read policy owner n).Concerns IsPartName := by
  refine concerns_leafOr (concerns_within (isPartName_key "concurrency" owner) fun s => ?_)
  refine (concerns_fill ?_).bind fun _ => (concerns_require _ _).bind fun _ => concerns_pure _
  refine (concerns_field (concerns_readText _)).bind fun _ => ?_
  exact (concerns_field (concerns_readFlag _)).bind fun _ => Form.concerns_pure _

theorem Environment.concerns_read (policy : Policy) (h : IsPartName what) (n : Node) :
    (Environment.read policy what n).Concerns IsPartName := by
  refine concerns_leafOr (concerns_within h fun s => ?_)
  refine (concerns_fill ?_).bind fun _ => (concerns_require _ _).bind fun _ => concerns_pure _
  refine (concerns_field (concerns_readText _)).bind fun _ => ?_
  exact (concerns_field (concerns_readText _)).bind fun _ => Form.concerns_pure _

/-! ### Containers -/

theorem Credentials.concerns_read (policy : Policy) (h : IsPartName what) (n : Node) :
    (Credentials.read policy what n).Concerns IsPartName := by
  refine concerns_within h fun s => (concerns_fill ?_).bind fun _ => ?_
  · refine (concerns_field (concerns_readText _)).bind fun _ => ?_
    exact (concerns_field (concerns_readText _)).bind fun _ => Form.concerns_pure _
  · refine (concerns_require _ _).bind fun _ => ?_
    exact (concerns_require _ _).bind fun _ => concerns_pure _

theorem Container.concerns_readFields (policy : Policy) (what : String) (s : Section)
    (pos : Position) : (readFields policy what s pos).Concerns IsPartName := by
  refine (concerns_field (concerns_readText _)).bind fun _ => ?_
  refine (concerns_field (Credentials.concerns_read policy (isPartName_key _ _))).bind fun _ => ?_
  refine (concerns_field (concerns_readEnv (isPartName_key _ _))).bind fun _ => ?_
  refine (concerns_field (concerns_readTexts _)).bind fun _ => ?_
  refine (concerns_field (concerns_readTexts _)).bind fun _ => ?_
  exact (concerns_field (concerns_readText _)).bind fun _ => Form.concerns_pure _

theorem Container.concerns_read (policy : Policy) (h : IsPartName what) (n : Node) :
    (Container.read policy what n).Concerns IsPartName := by
  refine concerns_leafOr (concerns_within h fun s => ?_)
  refine (concerns_fill (concerns_readFields policy what s n.pos)).bind fun _ => ?_
  exact (concerns_require _ _).bind fun _ => concerns_pure _

theorem concerns_readServices (policy : Policy) (h : IsPartName what) (n : Node) :
    (readServices policy what n).Concerns IsPartName := by
  refine concerns_free h fun e => (Container.concerns_read policy ?_ e.value).map
  exact ((show IsPartName "service \"" by decide).append e.key.value).append "\""

/-! ### Strategies -/

namespace Matrix

theorem concerns_readCombinations (key : String) (n : Node) :
    (readCombinations key n).Concerns IsPartName := by
  unfold readCombinations
  dsimp only
  split
  · refine (concerns_collect fun item => concerns_assignments ?_).map
    exact (show IsPartName "element of " by decide).append _
  · exact concerns_mismatch _ _ _

theorem concerns_readPart (e : Entry) : (readPart e).Concerns IsPartName := by
  unfold readPart
  split
  · exact (concerns_readCombinations _ _).map
  · exact ((concerns_readTexts _ _).map).map

theorem concerns_read (n : Node) : (Matrix.read n).Concerns IsPartName :=
  (concerns_free (by decide) concerns_readPart).map

end Matrix

theorem Strategy.concerns_read (policy : Policy) (h : IsPartName what) (n : Node) :
    (Strategy.read policy what n).Concerns IsPartName := by
  refine concerns_within h fun s => concerns_filled ?_
  refine (concerns_field Matrix.concerns_read).bind fun _ => ?_
  refine (concerns_field (concerns_readFlag _)).bind fun _ => ?_
  exact (concerns_field (concerns_readPlain _ _ _)).bind fun _ => Form.concerns_pure _

/-! ### Steps -/

namespace Step

/-- What says what a step does is about the step, or about the inputs of an action. -/
theorem concerns_readExec (h : IsPartName what) (s : Section) (pos : Position) (f : ExecFields) :
    (readExec what s pos f).Concerns IsPartName := by
  have hexclusive : ∀ first second : Text, ∀ name,
      (exclusive what first second).about? = some name → IsPartName name := by
    rintro first second _ ⟨⟩
    exact h
  obtain ⟨run, uses, inputs, shell, dir⟩ := f
  rcases run with - | ⟨runKey, script⟩ <;> rcases uses with - | ⟨usesKey, action⟩
  · -- what is missed is about no mapping
    unfold readExec
    dsimp only
    split
    · exact Concerns.bind (List.forall_mem_singleton.mpr fun _ hname => nomatch hname)
        fun _ => concerns_pure _
    · exact concerns_pure _
  · refine Concerns.bind (List.forall_mem_map.mpr fun k _ => hexclusive usesKey k.1) fun _ => ?_
    rcases inputs with - | ⟨inputsKey, v⟩
    · exact concerns_pure _
    · exact (concerns_assignments (isPartName_key "with" what)).bind fun _ => concerns_pure _
  · exact Concerns.bind (List.forall_mem_map.mpr fun k _ => hexclusive runKey k.1)
      fun _ => concerns_pure _
  · refine Concerns.bind (List.forall_mem_singleton.mpr ?_) fun _ => concerns_pure _
    split
    · exact hexclusive runKey usesKey
    · exact hexclusive usesKey runKey

theorem concerns_readFields (what : String) (s : Section) (pos : Position) :
    (readFields what s pos).Concerns IsPartName := by
  refine (concerns_field (concerns_readText _)).bind fun _ => ?_
  refine (concerns_field (concerns_readText _)).bind fun _ => ?_
  refine (concerns_field (concerns_readText _)).bind fun _ => ?_
  refine (concerns_fieldWithKey (concerns_readText _)).bind fun _ => ?_
  refine (concerns_fieldWithKey (concerns_readText _)).bind fun _ => ?_
  refine (concerns_fieldWithKey fun _ => concerns_pure _).bind fun _ => ?_
  refine (concerns_fieldWithKey (concerns_readText _)).bind fun _ => ?_
  refine (concerns_fieldWithKey (concerns_readText _)).bind fun _ => ?_
  refine (concerns_field (concerns_readEnv (isPartName_key _ _))).bind fun _ => ?_
  refine (concerns_field (concerns_readFlag _)).bind fun _ => ?_
  exact (concerns_field (concerns_readPlain _ _ _)).bind fun _ => Form.concerns_pure _

theorem concerns_readList (policy : Policy) (owner : String) (n : Node) :
    (readList policy owner n).Concerns IsPartName := by
  unfold readList
  split
  · refine (concerns_collect fun (item, i) => ?_).map
    have hstep : IsPartName s!"step {i + 1} of {owner}" :=
      (((show IsPartName "step " by decide).append _).append _).append _
    refine concerns_within hstep fun s => ?_
    refine (concerns_fill (concerns_readFields _ s item.pos)).bind fun _ => ?_
    exact (concerns_readExec hstep s item.pos _).bind fun _ => concerns_pure _
  · exact concerns_mismatch _ _ _

end Step

/-! ### Triggers -/

theorem concerns_withinBody {body : Option Node} {k : Section → Checked (Option α)} (h : P what)
    (hk : ∀ s, (k s).Concerns P) : (withinBody what body k).Concerns P := by
  unfold withinBody
  split
  · exact hk .empty
  · exact concerns_within h hk

theorem WebhookTrigger.concerns_read (policy : Policy) (hook : Text) (body : Option Node) :
    (WebhookTrigger.read policy hook body).Concerns IsPartName := by
  have hwhat : IsPartName s!"\"{hook.value}\" event" :=
    ((show IsPartName "\"" by decide).append hook.value).append "\" event"
  refine concerns_withinBody hwhat fun s => concerns_filled ?_
  refine (concerns_field (concerns_readTextOrTexts _)).bind fun _ => ?_
  refine (concerns_field (concerns_readTextOrTexts _)).bind fun _ => ?_
  refine (concerns_field (concerns_readTextOrTexts _)).bind fun _ => ?_
  refine (concerns_field (concerns_readTextOrTexts _)).bind fun _ => ?_
  refine (concerns_field (concerns_readTextOrTexts _)).bind fun _ => ?_
  refine (concerns_field (concerns_readTextOrTexts _)).bind fun _ => ?_
  refine (concerns_field (concerns_readTextOrTexts _)).bind fun _ => ?_
  exact (concerns_field (concerns_readTextOrTexts _)).bind fun _ => Form.concerns_pure _

theorem ScheduleTrigger.concerns_read (policy : Policy) (pos : Position) (body : Option Node) :
    (ScheduleTrigger.read policy pos body).Concerns IsPartName := by
  unfold ScheduleTrigger.read
  split
  · exact concerns_refuse rfl
  · split
    · refine Concerns.bind (concerns_collect fun item => ?_) fun _ => concerns_pure _
      refine concerns_within (by decide) fun s => ?_
      exact (concerns_fill (concerns_field (concerns_readText _))).bind
        fun _ => concerns_require _ _
    · exact concerns_mismatch _ _ _

theorem DispatchInput.concerns_read (policy : Policy) (e : Entry) :
    (DispatchInput.read policy e).Concerns IsPartName := by
  have hwhat : IsPartName s!"input \"{e.key.value}\" of workflow_dispatch" :=
    ((show IsPartName "input \"" by decide).append e.key.value).append "\" of workflow_dispatch"
  refine concerns_withinBody hwhat fun s => concerns_filled ?_
  refine (concerns_field (concerns_readText _)).bind fun _ => ?_
  refine (concerns_field (concerns_readFlag _)).bind fun _ => ?_
  refine (concerns_field (concerns_readText _)).bind fun _ => ?_
  refine (concerns_field (concerns_readText _)).bind fun _ => ?_
  exact (concerns_field (concerns_readTexts _)).bind fun _ => Form.concerns_pure _

theorem WorkflowDispatch.concerns_read (policy : Policy) (pos : Position) (body : Option Node) :
    (WorkflowDispatch.read policy pos body).Concerns IsPartName := by
  have hinputs : ∀ n : Node, (readInputs policy n).Concerns IsPartName :=
    fun n => concerns_free (by decide) (DispatchInput.concerns_read policy)
  refine concerns_withinBody (by decide) fun s => concerns_filled ?_
  exact (concerns_field hinputs).bind fun _ => Form.concerns_pure _

theorem RepositoryDispatch.concerns_read (policy : Policy) (pos : Position)
    (body : Option Node) : (RepositoryDispatch.read policy pos body).Concerns IsPartName := by
  refine concerns_withinBody (by decide) fun s => concerns_filled ?_
  exact (concerns_field (concerns_readTextOrTexts _)).bind fun _ => Form.concerns_pure _

namespace Trigger

theorem concerns_read (policy : Policy) (hook : Text) (body : Option Node) :
    (Trigger.read policy hook body).Concerns IsPartName := by
  unfold Trigger.read
  split
  · exact (ScheduleTrigger.concerns_read policy hook.pos body).map
  · split
    · exact (WorkflowDispatch.concerns_read policy hook.pos body).map
    · split
      · exact (RepositoryDispatch.concerns_read policy hook.pos body).map
      · split
        · exact (WebhookTrigger.concerns_read policy hook body).map
        · exact concerns_refuse rfl

theorem concerns_readList (policy : Policy) (n : Node) :
    (readList policy n).Concerns IsPartName := by
  unfold readList
  split
  · exact (concerns_read policy _ none).map
  · refine (concerns_collect fun item => ?_).map
    unfold readItem
    split
    · exact concerns_read policy _ none
    · exact concerns_mismatch _ _ _
  · refine concerns_within (by decide) fun s => Concerns.map ?_
    exact concerns_collect fun e => concerns_read policy e.key (some e.value)

end Trigger

/-! ### Jobs -/

theorem Runner.concerns_read (what : String) (n : Node) : (Runner.read what n).Concerns P := by
  have hlabels : (readLabels what n).Concerns P := by
    unfold readLabels
    split
    · exact concerns_pure _
    · exact concerns_readTexts what _
    · exact concerns_mismatch _ _ _
  refine hlabels.andThen fun labels => ?_
  split
  · exact concerns_pure _
  · exact concerns_mismatch _ _ _

/-- The keys of a job are about the parts of the job. -/
theorem Job.concerns_readFields (policy : Policy) (what : String) (id : Text) (s : Section) :
    (readFields policy what id s).Concerns IsPartName := by
  refine (concerns_field (concerns_readText _)).bind fun _ => ?_
  refine (concerns_field (concerns_readTextOrTexts _)).bind fun _ => ?_
  refine (concerns_field (Runner.concerns_read _)).bind fun _ => ?_
  refine (concerns_field (Permissions.concerns_read what)).bind fun _ => ?_
  refine (concerns_field (Environment.concerns_read policy (isPartName_key _ _))).bind fun _ => ?_
  refine (concerns_field (Concurrency.concerns_read policy what)).bind fun _ => ?_
  refine (concerns_field fun _ => concerns_assignments (isPartName_key _ _)).bind fun _ => ?_
  refine (concerns_field (concerns_readEnv (isPartName_key _ _))).bind fun _ => ?_
  refine (concerns_field (Defaults.concerns_read policy what)).bind fun _ => ?_
  refine (concerns_field (concerns_readText _)).bind fun _ => ?_
  refine (concerns_field (Step.concerns_readList policy what)).bind fun _ => ?_
  refine (concerns_field (concerns_readPlain _ _ _)).bind fun _ => ?_
  refine (concerns_field (Strategy.concerns_read policy (isPartName_key _ _))).bind fun _ => ?_
  refine (concerns_field (concerns_readFlag _)).bind fun _ => ?_
  refine (concerns_field (Container.concerns_read policy (isPartName_key _ _))).bind fun _ => ?_
  exact (concerns_field (concerns_readServices policy (isPartName_key _ _))).bind
    fun _ => Form.concerns_pure _

/-- What a job reports is about the job or about its parts. -/
theorem Job.concerns_read (policy : Policy) (id : Text) (n : Node) :
    (Job.read policy id n).Concerns fun name => IsPartName name ∨ IsJobName name := by
  refine concerns_withinOwner (.inr (isJobName_job id.value)) fun s => ?_
  refine Concerns.bind ((concerns_fill (concerns_readFields policy _ id s)).mono fun _ => .inl)
    fun _ => ?_
  refine (concerns_require _ _).bind fun _ => ?_
  exact (concerns_require _ _).bind fun _ => concerns_pure _

/-! ### Workflows -/

/-- The keys of a workflow are about the jobs of the workflow and about other parts. -/
theorem Workflow.concerns_readFields (policy : Policy) (what : String) (s : Section) :
    (readFields policy what s).Concerns fun name => IsPartName name ∨ IsJobName name := by
  have hpart : ∀ {α : Type} {key : String} {read : Node → Checked (Option α)},
      (∀ v, (read v).Concerns IsPartName) → (s.field key read).Concerns
        fun name => IsPartName name ∨ IsJobName name :=
    fun h => concerns_field fun v => (h v).mono fun _ => .inl
  refine (hpart (concerns_readText _)).bind fun _ => ?_
  refine (hpart (concerns_readText _)).bind fun _ => ?_
  refine (hpart (Trigger.concerns_readList policy)).bind fun _ => ?_
  refine (hpart (Permissions.concerns_read what)).bind fun _ => ?_
  refine (hpart (concerns_readEnv (by decide))).bind fun _ => ?_
  refine (hpart (Defaults.concerns_read policy what)).bind fun _ => ?_
  refine (hpart (Concurrency.concerns_read policy what)).bind fun _ => ?_
  have hjobs : (s.field "jobs" (Job.readAll policy)).Concerns
      fun name => IsPartName name ∨ IsJobName name :=
    concerns_field fun _ => concerns_free (.inl (by decide)) fun e =>
      Job.concerns_read policy e.key e.value
  exact hjobs.bind fun _ => Form.concerns_pure _

end WorkflowTree
