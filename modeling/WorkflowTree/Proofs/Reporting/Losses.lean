import WorkflowTree.Proofs.Acceptance.Workflow

/-!
# Nothing is lost in silence

Readers give up in several ways: a value is absent, an entry, an item, a step or a job is left
out, a required key is not there.  Each of these comes with a problem, and the problem is among
those of the reader that gives up, so whoever uses the reader has it already.

`NothingLost` says this reader by reader, and says at the end that a workflow is not refused
without a problem, however few problems the policy keeps.  What the structure lists was proved
where the readers are; only forms are treated here.
-/

namespace WorkflowTree

open Checked

variable {α β : Type}

/-! ### Forms -/

namespace Section

theorem accounts_read (what : String) (n : Node) :
    (read what n).Accounts n.size fun s => s.entries.length where
  explained := explained_read what n
  counted := fun _ hs => length_of_read hs

/-- A known key that is there without a value has a problem. -/
theorem problems_fill_of_value_eq_none {s : Section} {policy : Policy} {what key : String}
    {form : Form α} {read : Node → Checked (Option β)} (he : ∀ n, (read n).Explained)
    (nodup : form.keys.Nodup) (hmem : (key, s.problemsAt key read) ∈ form.fields)
    (hhas : s.has key = true) (hvalue : (s.field key read).value = none) :
    (s.fill policy what form).problems ≠ [] := by
  intro hclean
  have hproblems := ((clean_fill nodup).mp hclean).2 _ hmem hhas
  obtain ⟨v, hv⟩ := has_iff.mp hhas
  rw [value_field, hv, Option.bind_some] at hvalue
  refine he v hvalue ?_
  simpa [problemsAt, hv] using hproblems

/-- An unknown key is passed over only if the policy says so. -/
theorem problems_fill_of_unknown {s : Section} {policy : Policy} {what : String} {form : Form α}
    {e : Entry} (he : e ∈ s.entries) (hkey : e.key.value ∉ form.keys)
    (hpolicy : policy.allowUnknownKeys = false) :
    ∃ p ∈ (s.fill policy what form).problems, p.pos = e.key.pos := by
  have hp : entryProblems policy what form e =
      [⟨.unexpected what e.key.value (quotedKeys form.keys), e.key.pos⟩] := by
    have hlookup : form.fields.lookup e.key.value = none := Keyed.lookup_eq_none.mpr hkey
    rw [entryProblems, hlookup, hpolicy]
    rfl
  refine ⟨⟨.unexpected what e.key.value (quotedKeys form.keys), e.key.pos⟩,
    List.mem_flatMap.mpr ⟨e, he, ?_⟩, rfl⟩
  rw [hp]
  exact List.mem_singleton_self _

/-- A required key without a value has a problem: the reader of the value has one if the key is
there, and the look-up has one if it is not. -/
theorem explained_fill_require {s : Section} {policy : Policy} {what what' key : String}
    {pos : Position} {form : Form α} {read : Node → Checked (Option β)}
    (he : ∀ n, (read n).Explained) (nodup : form.keys.Nodup)
    (hmem : (key, s.problemsAt key read) ∈ form.fields) :
    (s.fill policy what form >>= fun _ =>
      s.require (s.field key read).value key what' pos).Explained := by
  refine explained_of_clean ?_
  rw [clean_bind, value_field]
  rintro ⟨hfill, hrequire⟩
  obtain ⟨b, hb⟩ := exists_value_of_require he nodup hfill hmem hrequire
  rw [value_bind, value_require, hb]
  exact Option.some_ne_none b

end Section

/-- What a step does is not left open without a problem. -/
theorem Step.explained_fill_readExec (policy : Policy) (what : String) (s : Section)
    (pos : Position) : (s.fill policy what (readFields what s pos) >>= fun f =>
      readExec what s pos f.1).Explained := by
  refine explained_of_clean ?_
  rw [clean_bind]
  rintro ⟨hfill, hexec⟩ hnone
  exact explained_readExec what pos (missing_of_clean hfill) hnone hexec

/-! ### All readers -/

/-- No reader gives up without a problem.  A reader that gives one value is `Explained`: if the
value is absent there is a problem.  A reader that gathers parts `Accounts` for them as well:
there is a problem for each part that it leaves out. -/
structure NothingLost (policy : Policy) : Prop where
  text : ∀ what n, (readText what n).Explained
  plain : ∀ {α : Type} (read? : String → Option α) expected what n,
    (readPlain read? expected what n).Explained
  texts : ∀ what n, (readTexts what n).Accounts n.size List.length
  textOrTexts : ∀ what n, (readTextOrTexts what n).Accounts n.size List.length
  assignment : ∀ what e, (Assignment.read what e).Explained
  entry : ∀ what kv, (Entry.read what kv).Explained
  mapping : ∀ what n, (Section.read what n).Accounts n.size fun s => s.entries.length
  ownerMapping : ∀ what n, (Section.readWithPermissions what n).Explained
  /-- Of permissions in two forms all repetitions may share one problem. -/
  ownerEntries : ∀ what n s, (Section.readWithPermissions what n).value = some s →
    s.entries.length < n.size → (Section.readWithPermissions what n).problems ≠ []
  known : ∀ {α β : Type} {s : Section} {what key : String} {form : Form α}
    {read : Node → Checked (Option β)}, (∀ n, (read n).Explained) → form.keys.Nodup →
    (key, s.problemsAt key read) ∈ form.fields → s.has key = true →
    (s.field key read).value = none → (s.fill policy what form).problems ≠ []
  unknown : ∀ {α : Type} {s : Section} {what : String} {form : Form α} {e : Entry},
    e ∈ s.entries → e.key.value ∉ form.keys → policy.allowUnknownKeys = false →
    ∃ p ∈ (s.fill policy what form).problems, p.pos = e.key.pos
  required : ∀ {α β : Type} {s : Section} {what what' key : String} {pos : Position}
    {form : Form α} {read : Node → Checked (Option β)}, (∀ n, (read n).Explained) →
    form.keys.Nodup → (key, s.problemsAt key read) ∈ form.fields →
    (s.fill policy what form >>= fun _ =>
      s.require (s.field key read).value key what' pos).Explained
  env : ∀ what n, (readEnv what n).Accounts n.size Keyed.size
  grant : ∀ e, (Permissions.readGrant e).Explained
  permissions : ∀ owner n, (Permissions.read owner n).Accounts n.size Permissions.scopeCount
  scriptDefaults : ∀ n, (ScriptDefaults.read policy n).Explained
  defaults : ∀ owner n, (Defaults.read policy owner n).Explained
  concurrency : ∀ owner n, (Concurrency.read policy owner n).Explained
  environment : ∀ what n, (Environment.read policy what n).Explained
  credentials : ∀ what n, (Credentials.read policy what n).Explained
  container : ∀ what n, (Container.read policy what n).Explained
  services : ∀ what n, (readServices policy what n).Accounts n.size Keyed.size
  combination : ∀ what n, (Matrix.readCombination what n).Accounts n.size Keyed.size
  combinations : ∀ key n, (Matrix.readCombinations key n).Accounts n.size List.length
  matrixParts : ∀ n, (Matrix.readParts n).Accounts n.size Keyed.size
  matrix : ∀ n, (Matrix.read n).Explained
  strategy : ∀ what n, (Strategy.read policy what n).Explained
  webhook : ∀ hook body, (WebhookTrigger.read policy hook body).Explained
  scheduleTime : ∀ n, (ScheduleTrigger.readTime policy n).Explained
  schedule : ∀ pos n, (ScheduleTrigger.read policy pos (some n)).Accounts n.size
    fun t => t.cron.length
  scheduleBody : ∀ pos body, (ScheduleTrigger.read policy pos body).Explained
  dispatchInput : ∀ e, (DispatchInput.read policy e).Explained
  dispatchInputs : ∀ n, (WorkflowDispatch.readInputs policy n).Accounts n.size Keyed.size
  workflowDispatch : ∀ pos body, (WorkflowDispatch.read policy pos body).Explained
  repositoryDispatch : ∀ pos body, (RepositoryDispatch.read policy pos body).Explained
  trigger : ∀ hook body, (Trigger.read policy hook body).Explained
  triggerItem : ∀ n, (Trigger.readItem policy n).Explained
  triggers : ∀ n, (Trigger.readList policy n).Accounts n.size List.length
  runnerLabels : ∀ what n, (Runner.readLabels what n).Accounts n.size List.length
  runner : ∀ what n, (Runner.read what n).Explained
  actionInputs : ∀ owner n, (ActionUse.readInputs owner n).Accounts n.size Keyed.size
  exec : ∀ what s pos, (s.fill policy what (Step.readFields what s pos) >>= fun f =>
    Step.readExec what s pos f.1).Explained
  step : ∀ what n, (Step.read policy what n).Explained
  steps : ∀ owner n, (Step.readList policy owner n).Accounts n.size List.length
  outputs : ∀ what n, (Job.readOutputs what n).Accounts n.size Keyed.size
  job : ∀ id n, (Job.read policy id n).Explained
  jobs : ∀ n, (Job.readAll policy n).Accounts n.size Keyed.size
  workflow : ∀ root, (Workflow.read policy root).Explained
  refusal : ∀ root, Workflow.parse policy root ≠ .error []

/-- A workflow is refused with a problem at least, under any policy. -/
theorem Workflow.parse_ne_error_nil (policy : Policy) (root : Node) :
    parse policy root ≠ .error [] := by
  have hsort : ∀ p ps, Problem.sort (policy.keep (p :: ps)) ≠ [] := by
    intro p ps h
    have hlength := congrArg List.length h
    rw [Problem.length_sort, List.length_nil, List.length_eq_zero_iff,
      Policy.keep_eq_nil] at hlength
    cases hlength
  intro h
  have hexplained := explained_read policy root
  unfold parse at h
  rcases e : read policy root with ⟨_ | w, _ | ⟨p, ps⟩⟩
  · -- no value and no problem: excluded
    rw [e] at hexplained
    exact hexplained rfl rfl
  · rw [e] at h
    exact hsort p ps (Except.error.inj h)
  · rw [e] at h
    cases h
  · rw [e] at h
    exact hsort p ps (Except.error.inj h)

/-- **Nothing is lost in silence**: under any policy, no reader gives up, and no workflow is
refused, without a problem. -/
theorem nothingLost (policy : Policy) : NothingLost policy where
  text := explained_readText
  plain := explained_readPlain
  texts := accounts_readTexts
  textOrTexts := accounts_readTextOrTexts
  assignment := Assignment.explained_read
  entry := Entry.explained_read
  mapping := Section.accounts_read
  ownerMapping := Section.explained_readWithPermissions
  ownerEntries := fun _ _ _ => Section.problems_of_readWithPermissions
  known := Section.problems_fill_of_value_eq_none
  unknown := Section.problems_fill_of_unknown
  required := Section.explained_fill_require
  env := accounts_readEnv
  grant := Permissions.explained_readGrant
  permissions := Permissions.accounts_read
  scriptDefaults := ScriptDefaults.explained_read policy
  defaults := Defaults.explained_read policy
  concurrency := Concurrency.explained_read policy
  environment := Environment.explained_read policy
  credentials := Credentials.explained_read policy
  container := Container.explained_read policy
  services := accounts_readServices policy
  combination := Matrix.accounts_readCombination
  combinations := Matrix.accounts_readCombinations
  matrixParts := Matrix.accounts_readParts
  matrix := Matrix.explained_read
  strategy := Strategy.explained_read policy
  webhook := WebhookTrigger.explained_read policy
  scheduleTime := ScheduleTrigger.explained_readTime policy
  schedule := ScheduleTrigger.accounts_read policy
  scheduleBody := ScheduleTrigger.explained_read policy
  dispatchInput := DispatchInput.explained_read policy
  dispatchInputs := WorkflowDispatch.accounts_readInputs policy
  workflowDispatch := WorkflowDispatch.explained_read policy
  repositoryDispatch := RepositoryDispatch.explained_read policy
  trigger := Trigger.explained_read policy
  triggerItem := Trigger.explained_readItem policy
  triggers := Trigger.accounts_readList policy
  runnerLabels := Runner.accounts_readLabels
  runner := Runner.explained_read
  actionInputs := ActionUse.accounts_readInputs
  exec := Step.explained_fill_readExec policy
  step := Step.explained_read policy
  steps := Step.accounts_readList policy
  outputs := Job.accounts_readOutputs
  job := Job.explained_read policy
  jobs := Job.accounts_readAll policy
  workflow := Workflow.explained_read policy
  refusal := Workflow.parse_ne_error_nil policy

end WorkflowTree
