import WorkflowTree.Proofs.Editing.Job
import WorkflowTree.Proofs.Editing.Step
import WorkflowTree.Proofs.Editing.Workflow
import WorkflowTree.Proofs.Reordering.Same

/-!
# What can be built

A workflow is built (`Workflow.IsBuilt`) if calls make it from one trigger, where all jobs that the
calls add are built by edits from their ids and runners, and all steps of these jobs by edits from
scripts and actions.

It is coherent (`Workflow.Coherent`) if it has a trigger, if what it keeps under names is kept under
its own, at all depths, and if it has nothing that no edit writes: the place of a job other than
that of its id, the entrypoint and the arguments of an action.

That what is built is coherent follows from what sequences of edits make.  The other way, the parts
of a coherent value are themselves calls that make it.  The main statement is
`Workflow.exists_isBuilt_same_iff`, where a workflow stands for all that are the same.
-/

namespace WorkflowTree

/-! ### Building -/

/-- Edits make the step. -/
inductive Step.IsBuilt : Step → Prop
  | script {script : Text} {pos : Position} {es : List StepEdit} {s : Step} :
      editAll Step.edit (.ofScript script pos) es = .ok s → IsBuilt s
  | action {action : Text} {pos : Position} {es : List StepEdit} {s : Step} :
      editAll Step.edit (.ofAction action pos) es = .ok s → IsBuilt s

/-- Edits make the job, of steps that are built. -/
inductive Job.IsBuilt : Job → Prop
  | ofEdits {id : Text} {runsOn : Runner} {es : List JobEdit} {j : Job} :
      (∀ s, .step s ∈ es → s.IsBuilt) → editAll Job.edit (.ofRunner id runsOn) es = .ok j →
      IsBuilt j

/-- The job that a call adds, if it does, is built. -/
inductive WorkflowCall.AddsBuilt : WorkflowCall → Prop
  | edit {e : WorkflowEdit} : (∀ j, e = .job j → j.IsBuilt) → AddsBuilt (.edit e)
  | addBuiltJob {id : Text} {runsOn : Runner} {build : Job → Except Problem Job} :
      (∀ i j, i.IsBuilt → build i = .ok j → j.IsBuilt) → AddsBuilt (.addBuiltJob id runsOn build)

/-- Calls make the workflow, of jobs that are built. -/
inductive Workflow.IsBuilt : Workflow → Prop
  | ofCalls {t : Trigger} {ks : List WorkflowCall} {w : Workflow} : (∀ k ∈ ks, k.AddsBuilt) →
      editAll Workflow.call (.ofTrigger t) ks = .ok w → IsBuilt w

/-! ### Coherent values -/

/-- The inputs are stored under their names, and nothing is kept apart from them. -/
structure ActionUse.Coherent (a : ActionUse) : Prop where
  inputs : a.inputs.NamedBy fun a => a.name.value
  entrypoint : a.entrypoint = none
  args : a.args = none

/-- The environment of the step is stored under its names, and its action is coherent. -/
structure Step.Coherent (s : Step) : Prop where
  env : s.env.NamedBy fun a => a.name.value
  action : ∀ a, s.exec = .action a → a.Coherent

/-- The job stands at its id, its collections are stored under their names, and its steps are
coherent. -/
structure Job.Coherent (j : Job) : Prop where
  pos : j.pos = j.id.pos
  outputs : j.outputs.NamedBy fun a => a.name.value
  env : j.env.NamedBy fun a => a.name.value
  services : j.services.NamedBy fun s => s.name.value
  steps : ∀ s ∈ j.steps, s.Coherent

/-- The workflow has a trigger, its collections are stored under their names, and its jobs are
coherent. -/
structure Workflow.Coherent (w : Workflow) : Prop where
  triggers : w.triggers ≠ []
  env : w.env.NamedBy fun a => a.name.value
  names : w.jobs.NamedBy fun j => j.id.value
  jobs : ∀ id j, w.jobs.find? id = some j → j.Coherent

/-! ### Steps -/

namespace Step

variable {s t : Step}

theorem IsBuilt.coherent (h : s.IsBuilt) : s.Coherent := by
  cases h with
  | script h =>
    have hs := describes.editAll_eq_ok.mp h
    obtain ⟨-, hexec⟩ := hs.exec
    constructor
    · exact hs.env.namedBy
    · intro a ha
      cases hexec.symm.trans ha
  | action h =>
    have hs := describes.editAll_eq_ok.mp h
    obtain ⟨-, -, inputs, hinputs, hexec⟩ := hs.exec
    constructor
    · exact hs.env.namedBy
    · intro a ha
      cases hexec.symm.trans ha
      exact ⟨hinputs.namedBy, rfl, rfl⟩

/-- Edits write every step whose environment is stored under its names, if they write what it
does. -/
theorem exists_editAll_eq {x : Exec} {shells workingDirectories : List Text}
    {inputs : List Assignment} (henv : s.env.NamedBy fun a => a.name.value)
    (hexec : x.Edited shells workingDirectories inputs s.exec) :
    ∃ es, editAll edit { exec := x, pos := s.pos } es = .ok s := by
  obtain ⟨es, hes⟩ := exists_calls {
    ids := s.id.toList, names := s.name.toList, conditions := s.condition.toList
    continueOnErrors := s.continueOnError.toList, timeouts := s.timeout.toList
    envs := s.env.values, shells, workingDirectories, inputs }
  have hedited : Edited { exec := x, pos := s.pos } (calls es) s := by
    rw [hes]
    exact ⟨lastOf_toList _, lastOf_toList _, lastOf_toList _, hexec,
      Keyed.extendedBy_empty_values.mpr henv, lastOf_toList _, lastOf_toList _, rfl⟩
  exact ⟨es, describes.editAll_eq_ok.mpr hedited⟩

theorem Coherent.isBuilt (h : s.Coherent) : s.IsBuilt := by
  rcases hexec : s.exec with r | a
  · -- a script, which gets its shell and its directory
    have hrun : (Exec.run { script := r.script }).Edited r.shell.toList
        r.workingDirectory.toList [] s.exec := by
      rw [hexec]
      exact ⟨rfl, by rw [lastOf_toList, lastOf_toList]⟩
    obtain ⟨es, hes⟩ := exists_editAll_eq h.env hrun
    exact .script hes
  · -- an action, which gets its inputs and has nothing that is not written
    have haction : (Exec.action { action := a.action }).Edited [] [] a.inputs.values s.exec := by
      obtain ⟨hinputs, hentrypoint, hargs⟩ := h.action a hexec
      obtain ⟨action, inputs, entrypoint, args⟩ := a
      cases hentrypoint
      cases hargs
      exact ⟨rfl, rfl, inputs, Keyed.extendedBy_empty_values.mpr hinputs, hexec⟩
    obtain ⟨es, hes⟩ := exists_editAll_eq h.env haction
    exact .action hes

theorem Coherent.of_same (h : s.Coherent) (hst : s.Same t) : t.Coherent where
  env := h.env.of_same hst.env
  action := by
    intro b hb
    have hexec := hb ▸ hst.exec
    generalize ha : s.exec = x at hexec
    cases hexec with
    | @action a _ hab =>
      have hcoherent := h.action a ha
      exact ⟨hcoherent.inputs.of_same hab.inputs, hab.entrypoint_eq ▸ hcoherent.entrypoint,
        hab.args_eq ▸ hcoherent.args⟩

end Step

/-! ### Jobs -/

namespace Job

variable {i j : Job} {es : List JobEdit}

theorem mem_steps_calls {s : Step} : s ∈ (calls es).steps ↔ .step s ∈ es := by
  constructor
  · intro h
    obtain ⟨e, he, hs⟩ := List.mem_filterMap.mp h
    cases e <;> cases hs
    exact he
  · exact fun h => List.mem_filterMap.mpr ⟨_, h, rfl⟩

theorem IsBuilt.coherent (h : j.IsBuilt) : j.Coherent := by
  obtain ⟨hsteps, h⟩ := h
  have hj := describes.editAll_eq_ok.mp h
  refine ⟨?_, hj.outputs.namedBy, hj.env.namedBy, hj.services.namedBy, ?_⟩
  · rw [← hj.pos, ← hj.id]
    rfl
  · intro s hs
    rw [← hj.steps] at hs
    exact (hsteps s (mem_steps_calls.mp hs)).coherent

theorem Coherent.isBuilt (h : j.Coherent) : j.IsBuilt := by
  obtain ⟨es, hes⟩ := exists_calls {
    names := j.name.toList, needs := j.needs, permissions := j.permissions.toList
    environments := j.environment.toList, concurrencies := j.concurrency.toList
    outputs := j.outputs.values, envs := j.env.values, defaults := j.defaults.toList
    conditions := j.condition.toList, steps := j.steps, timeouts := j.timeout.toList
    strategies := j.strategy.toList, continueOnErrors := j.continueOnError.toList
    containers := j.container.toList, services := j.services.values }
  have hedited : (ofRunner j.id j.runsOn).Edited (calls es) j := by
    have houtputs := Keyed.extendedBy_empty_values.mpr h.outputs
    have henv := Keyed.extendedBy_empty_values.mpr h.env
    have hservices := Keyed.extendedBy_empty_values.mpr h.services
    rw [hes]
    constructor <;> simp [ofRunner, h.pos, houtputs, henv, hservices]
  have hsteps : ∀ s, .step s ∈ es → s.IsBuilt := by
    intro s hs
    have hmem : s ∈ j.steps := by
      rw [← mem_steps_calls, hes] at hs
      exact hs
    exact (h.steps s hmem).isBuilt
  exact .ofEdits hsteps (describes.editAll_eq_ok.mpr hedited)

theorem isBuilt_ofRunner (id : Text) (runsOn : Runner) : (ofRunner id runsOn).IsBuilt := by
  have hnone : editAll edit (ofRunner id runsOn) [] = .ok (ofRunner id runsOn) := rfl
  exact .ofEdits (fun s hs => absurd hs List.not_mem_nil) hnone

theorem Coherent.of_same (h : i.Coherent) (hij : i.Same j) : j.Coherent where
  pos := by
    rw [← hij.id_eq, ← hij.pos_eq]
    exact h.pos
  outputs := h.outputs.of_same hij.outputs
  env := h.env.of_same hij.env
  services := h.services.of_sameBy hij.services fun s t hst => congrArg Located.value hst.name_eq
  steps := by
    intro t ht
    obtain ⟨s, hs, hst⟩ := exists_of_mem_right hij.steps ht
    exact (h.steps s hs).of_same hst

end Job

/-! ### Workflows -/

namespace Workflow

variable {v w : Workflow}

theorem mem_jobs_calls {j : Job} {es : List WorkflowEdit} :
    j ∈ (calls es).jobs ↔ .job j ∈ es := by
  constructor
  · intro h
    obtain ⟨e, he, hj⟩ := List.mem_filterMap.mp h
    cases e <;> cases hj
    exact he
  · exact fun h => List.mem_filterMap.mpr ⟨_, h, rfl⟩

/-- A job that comes from a call is built. -/
theorem isBuilt_of_comesTo {k : WorkflowCall} {j : Job} (hk : k.AddsBuilt)
    (h : k.ComesTo (.job j)) : j.IsBuilt := by
  cases h with
  | edit =>
    cases hk with
    | edit hbuilt => exact hbuilt j rfl
  | addBuiltJob hbuild =>
    cases hk with
    | addBuiltJob hbuilt => exact hbuilt _ j (Job.isBuilt_ofRunner _ _) hbuild

theorem IsBuilt.coherent (h : w.IsBuilt) : w.Coherent := by
  obtain ⟨hbuilt, h⟩ := h
  obtain ⟨es, hes⟩ := exists_forall₂_comesTo h
  rw [editAll_call hes] at h
  have hw := describes.editAll_eq_ok.mp h
  refine ⟨?_, hw.env.namedBy, hw.jobs.namedBy, ?_⟩
  · rw [← hw.triggers]
    exact List.cons_ne_nil _ _
  · intro id j hj
    have hmem : j ∈ (calls es).jobs := hw.jobs.values_eq ▸ Keyed.mem_values.mpr ⟨id, hj⟩
    obtain ⟨k, hk, hkj⟩ := exists_of_mem_right hes (mem_jobs_calls.mp hmem)
    exact (isBuilt_of_comesTo (hbuilt k hk) hkj).coherent

theorem Coherent.isBuilt (h : w.Coherent) : w.IsBuilt := by
  obtain ⟨t, ts, htriggers⟩ := List.exists_cons_of_ne_nil h.triggers
  obtain ⟨es, hes⟩ := exists_calls {
    names := w.name.toList, runNames := w.runName.toList, triggers := ts
    permissions := w.permissions.toList, envs := w.env.values, defaults := w.defaults.toList
    concurrencies := w.concurrency.toList, jobs := w.jobs.values }
  have hedited : (ofTrigger t).Edited (calls es) w := by
    have henv := Keyed.extendedBy_empty_values.mpr h.env
    have hjobs := Keyed.extendedBy_empty_values.mpr h.names
    rw [hes]
    constructor <;> simp [ofTrigger, htriggers, henv, hjobs]
  have hcomes : List.Forall₂ WorkflowCall.ComesTo (es.map .edit) es := by
    rw [List.forall₂_map_left_iff]
    exact List.forall₂_same.mpr fun e _ => .edit e
  have hbuilt : ∀ k ∈ es.map WorkflowCall.edit, k.AddsBuilt := by
    intro k hk
    obtain ⟨e, he, rfl⟩ := List.mem_map.mp hk
    apply WorkflowCall.AddsBuilt.edit
    rintro j rfl
    -- a job that is added is one of the workflow
    have hmem : j ∈ w.jobs.values := by
      rw [← mem_jobs_calls, hes] at he
      exact he
    obtain ⟨id, hid⟩ := Keyed.mem_values.mp hmem
    exact (h.jobs id j hid).isBuilt
  exact .ofCalls hbuilt ((editAll_call hcomes).trans (describes.editAll_eq_ok.mpr hedited))

theorem Coherent.of_same (h : v.Coherent) (hvw : v.Same w) : w.Coherent where
  triggers := by
    intro hw
    have hlength := hvw.triggers.length_eq
    rw [hw] at hlength
    exact h.triggers (List.length_eq_zero_iff.mp hlength)
  env := h.env.of_same hvw.env
  names := h.names.of_sameBy hvw.jobs fun i j hij => congrArg Located.value hij.id_eq
  jobs := by
    intro id j hj
    obtain ⟨i, hi, hij⟩ := exists_of_optionRel_some (hj ▸ hvw.jobs id)
    exact (h.jobs id i hi).of_same hij

/-- **What can be built.**  Some calls make a workflow, up to the order of collections, just if it
is coherent. -/
theorem exists_isBuilt_same_iff (w : Workflow) :
    (∃ v : Workflow, v.IsBuilt ∧ v.Same w) ↔ w.Coherent := by
  constructor
  · rintro ⟨v, hv, hvw⟩
    exact hv.coherent.of_same hvw
  · intro h
    exact ⟨w, h.isBuilt, .refl w⟩

end Workflow

end WorkflowTree
