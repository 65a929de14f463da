import WorkflowTree.Proofs.Acceptance.Settings
import WorkflowTree.Proofs.Acceptance.Step
import WorkflowTree.Reading.Job

/-!
# What readers of jobs accept

A job has two required keys.  What the others give only completes the job, so a job that is read
without a problem is there as soon as the values of these two are.
-/

namespace WorkflowTree

open Checked

variable {policy : Policy} {what : String} {n : Node}

/-! ### Runners -/

namespace Runner

theorem accounts_readLabels (what : String) (n : Node) :
    (readLabels what n).Accounts n.size List.length := by
  rcases n with _ | _ | ⟨items, pos⟩ | _
  · exact accounts_refuse _ _ _
  · exact accounts_some _ _ (Nat.zero_le _)
  · exact accounts_readTexts what (.sequence items pos)
  · exact accounts_refuse _ _ _

theorem ofLabels?_ne_none {labels : List Text} (pos : Position) :
    ofLabels? labels pos ≠ none ↔
      labels.length = 1 ∨ ∃ l ∈ labels, l.value = "self-hosted" := by
  unfold ofLabels? selfHostedLabel
  by_cases h : ∃ l ∈ labels, l.value = "self-hosted"
  · rw [if_pos (by simpa using h)]
    simp [h]
  · rw [if_neg (by simpa using h), or_iff_left h]
    rcases labels with - | ⟨l, - | ⟨l', ls⟩⟩ <;> simp

/-- Texts as they are read have the same length as the nodes, and the same words. -/
theorem labels_iff {items : List Node} (h : ∀ i ∈ items, i.IsText) :
    ((items.filterMap Node.leaf?).length = 1 ∨
      ∃ l ∈ items.filterMap Node.leaf?, l.value = "self-hosted") ↔
    (items.length = 1 ∨ ∃ i ∈ items, i.text? = some "self-hosted") := by
  have hlength : (items.filterMap Node.leaf?).length = items.length := by
    refine List.filterMap_length_eq_length.mpr fun i hi => ?_
    obtain ⟨text, htext⟩ := h i hi
    rw [Node.text?_eq_leaf?] at htext
    rw [← Option.isSome_map (f := Located.value), htext, Option.isSome_some]
  rw [hlength]
  refine or_congr_right ?_
  simp only [Node.text?_eq_leaf?, List.mem_filterMap, Option.map_eq_some_iff]
  constructor
  · rintro ⟨l, ⟨i, hi, hl⟩, hword⟩
    exact ⟨i, hi, l, hl, hword⟩
  · rintro ⟨i, hi, l, hl, hword⟩
    exact ⟨l, ⟨i, hi, hl⟩, hword⟩

@[simp] theorem clean_read : (read what n).Clean ↔ IsRunner n := by
  -- the labels decide, whichever way they are written
  have hlabels : (read what n).Clean ↔ (readLabels what n).Clean ∧
      ∀ labels, (readLabels what n).value = some labels →
        labels.length = 1 ∨ ∃ l ∈ labels, l.value = "self-hosted" := by
    rw [read, clean_andThen]
    refine and_congr_right fun _ => forall₂_congr fun labels _ => ?_
    rw [← ofLabels?_ne_none n.pos]
    rcases ofLabels? labels n.pos with - | r <;> simp
  rw [hlabels]
  unfold IsRunner
  rcases n with pos | ⟨text, plain, pos⟩ | ⟨items, pos⟩ | ⟨entries, pos⟩
  · simp [readLabels, Node.IsText, Node.text?, Node.items?]
  · simp [readLabels, Node.IsText, Node.text?]
  · rw [readLabels, clean_readTexts, value_readTexts]
    simp only [Node.IsText, Node.IsSequenceOf, Node.text?, Node.items?, reduceCtorEq,
      exists_false, false_or, Option.some.injEq, exists_eq_left', Option.map_some,
      forall_eq']
    exact and_congr_right labels_iff
  · simp [readLabels, Node.IsText, Node.text?, Node.items?]

theorem explained_read (what : String) (n : Node) : (read what n).Explained := by
  refine explained_andThen (accounts_readLabels what n).explained fun labels => ?_
  split
  · exact explained_some _ _
  · exact explained_mismatch _ _ _

end Runner

/-! ### Jobs -/

namespace Job

@[simp] theorem clean_readOutputs : (readOutputs what n).Clean ↔ n.IsAssignments :=
  Section.clean_free fun _ => Assignment.clean_read

theorem accounts_readOutputs (what : String) (n : Node) :
    (readOutputs what n).Accounts n.size Keyed.size :=
  Section.accounts_free fun _ => Assignment.explained_read _ _

theorem nodup_readFields (policy : Policy) (what : String) (id : Text) (s : Section) :
    (readFields policy what id s).keys.Nodup := by
  simp [readFields, Form.keys, Section.permissionsKey]

/-- The required keys of a job are two fields of its form; what the other keys give only serves
to complete the job. -/
theorem exists_value_readFields (policy : Policy) (what : String) (id : Text) (s : Section) :
    ∃ runsOnWhat complete, (readFields policy what id s).value =
        ((s.field "runs-on" (Runner.read runsOnWhat)).value,
          (s.field "steps" (Step.readList policy what)).value, complete) ∧
      ("runs-on", s.problemsAt "runs-on" (Runner.read runsOnWhat)) ∈
        (readFields policy what id s).fields ∧
      ("steps", s.problemsAt "steps" (Step.readList policy what)) ∈
        (readFields policy what id s).fields :=
  ⟨_, _, rfl, by simp [readFields], by simp [readFields]⟩

theorem clean_fill_readFields {id : Text} {s : Section} (hn : n.IsSection)
    (hs : ∀ key, s.get? key = n.get? key) :
    (s.fill policy what (readFields policy what id s)).Clean ↔
      n.IsFixed policy ["name", "needs", "runs-on", "permissions", "environment", "concurrency",
        "outputs", "env", "defaults", "if", "steps", "timeout-minutes", "strategy",
        "continue-on-error", "container", "services"] ∧
      n.Allows "name" Node.IsText ∧ n.Allows "needs" Node.IsTextOrTexts ∧
      n.Allows "runs-on" IsRunner ∧ n.Allows "permissions" IsPermissions ∧
      n.Allows "environment" (IsEnvironment policy) ∧
      n.Allows "concurrency" (IsConcurrency policy) ∧ n.Allows "outputs" Node.IsAssignments ∧
      n.Allows "env" Node.IsAssignments ∧ n.Allows "defaults" (IsDefaults policy) ∧
      n.Allows "if" Node.IsText ∧ n.Allows "steps" (Node.IsSequenceOf (IsStep policy)) ∧
      n.Allows "timeout-minutes" Node.IsMinutes ∧ n.Allows "strategy" (IsStrategy policy) ∧
      n.Allows "continue-on-error" Node.IsFlag ∧ n.Allows "container" (IsContainer policy) ∧
      n.Allows "services" (Node.IsFree fun _ => IsContainer policy) := by
  rw [Section.clean_fill (nodup_readFields policy what id s)]
  simp [readFields, Form.keys, Section.problemsAt_eq_nil hs, hs, Node.IsFixed, hn,
    Section.permissionsKey]

@[simp] theorem clean_read {id : Text} : (read policy id n).Clean ↔ IsJob policy n := by
  refine Section.clean_withinOwner (fun h => h.keys.1) fun s hn hs => ?_
  obtain ⟨_, complete, hvalue, -⟩ :=
    exists_value_readFields policy s!"job \"{id.value}\"" id s
  rw [clean_bind, clean_fill_readFields hn hs, Section.value_fill, hvalue]
  simp only [clean_bind, Section.value_field, hs, Section.clean_require_bind hs, clean_pure,
    and_true]
  -- the required keys are there, and what is there has its shape
  constructor
  · rintro ⟨⟨keys, name, needs, runsOn, permissions, environment, concurrency, outputs, env,
      defaults, condition, steps, timeout, strategy, continued, container, services⟩,
      hasRunsOn, hasSteps⟩
    exact ⟨keys, Node.requires_iff.mpr ⟨hasRunsOn, runsOn⟩,
      Node.requires_iff.mpr ⟨hasSteps, steps⟩, name, needs, permissions, environment,
      concurrency, outputs, env, defaults, condition, timeout, strategy, continued, container,
      services⟩
  · intro h
    obtain ⟨hasRunsOn, runsOn⟩ := Node.requires_iff.mp h.runsOn
    obtain ⟨hasSteps, steps⟩ := Node.requires_iff.mp h.steps
    exact ⟨⟨h.keys, h.name, h.needs, runsOn, h.permissions, h.environment, h.concurrency,
      h.outputs, h.env, h.defaults, h.condition, steps, h.timeout, h.strategy,
      h.continueOnError, h.container, h.services⟩, hasRunsOn, hasSteps⟩

theorem explained_read (policy : Policy) (id : Text) (n : Node) :
    (read policy id n).Explained := by
  refine Section.explained_withinOwner fun s => explained_of_clean ?_
  obtain ⟨_, complete, hvalue, hmemRunsOn, hmemSteps⟩ :=
    exists_value_readFields policy s!"job \"{id.value}\"" id s
  have nodup := nodup_readFields policy s!"job \"{id.value}\"" id s
  simp only [clean_bind, Section.value_fill, hvalue, Section.value_field, Section.value_require]
  rintro ⟨hfill, hrunsOn, hsteps, -⟩
  obtain ⟨runsOn, hr⟩ := Section.exists_value_of_require (Runner.explained_read _)
    nodup hfill hmemRunsOn hrunsOn
  obtain ⟨steps, hs⟩ := Section.exists_value_of_require
    (fun n => (Step.accounts_readList policy _ n).explained)
    nodup hfill hmemSteps hsteps
  simp [hvalue, hr, hs]

@[simp] theorem clean_readAll : (readAll policy n).Clean ↔ n.IsFree fun _ => IsJob policy :=
  Section.clean_free fun _ => clean_read

theorem accounts_readAll (policy : Policy) (n : Node) :
    (readAll policy n).Accounts n.size Keyed.size :=
  Section.accounts_free fun e => explained_read policy e.key e.value

end Job

end WorkflowTree
