import WorkflowTree.Edit.Workflow
import WorkflowTree.Proofs.Editing.Run
import Mathlib.Data.List.Forall2
import Mathlib.Tactic.MkIffOfInductiveProp

/-!
# What edits make of a workflow

As for steps and jobs, `Workflow.calls` sorts a sequence of edits by what they write, and
`Workflow.Edited` says what a workflow becomes by these calls.  A `WorkflowCall` may also build the
job that it adds, from one without steps; once that is done it is the edit that adds this job
(`WorkflowCall.ComesTo`).

* `Workflow.edited_add` is the rule for one edit before others, from which `Workflow.describes`
  follows;
* `Workflow.editAll_call` takes calls as edits;
* `Workflow.exists_edited` says when all edits are made;
* `Workflow.exists_calls` says that each choice of calls is made by some sequence.
-/

namespace WorkflowTree

/-- What is written to a workflow, kind by kind. -/
structure Workflow.Calls where
  names : List Text
  runNames : List Text
  triggers : List Trigger
  permissions : List Permissions
  envs : List Assignment
  defaults : List Defaults
  concurrencies : List Concurrency
  jobs : List Job

namespace Workflow

/-- The calls of a sequence of edits. -/
def calls (es : List WorkflowEdit) : Calls where
  names := es.filterMap fun | .name t => some t | _ => none
  runNames := es.filterMap fun | .runName t => some t | _ => none
  triggers := es.filterMap fun | .trigger t => some t | _ => none
  permissions := es.filterMap fun | .permissions p => some p | _ => none
  envs := es.filterMap fun | .env name value => some ⟨name, value⟩ | _ => none
  defaults := es.filterMap fun | .defaults d => some d | _ => none
  concurrencies := es.filterMap fun | .concurrency c => some c | _ => none
  jobs := es.filterMap fun | .job j => some j | _ => none

/-- The calls when one edit is made before the others. -/
def Calls.add (c : Calls) : WorkflowEdit → Calls
  | .name t => { c with names := t :: c.names }
  | .runName t => { c with runNames := t :: c.runNames }
  | .trigger t => { c with triggers := t :: c.triggers }
  | .permissions p => { c with permissions := p :: c.permissions }
  | .env name value => { c with envs := ⟨name, value⟩ :: c.envs }
  | .defaults d => { c with defaults := d :: c.defaults }
  | .concurrency g => { c with concurrencies := g :: c.concurrencies }
  | .job j => { c with jobs := j :: c.jobs }

theorem calls_cons (e : WorkflowEdit) (es : List WorkflowEdit) :
    calls (e :: es) = (calls es).add e := by
  cases e <;> rfl

/-- Each choice of calls is made by some sequence. -/
theorem exists_calls (c : Calls) : ∃ es, calls es = c := by
  let es : List WorkflowEdit := List.flatten [
    c.names.map .name, c.runNames.map .runName, c.triggers.map .trigger,
    c.permissions.map .permissions, c.envs.map fun a => .env a.name a.value,
    c.defaults.map .defaults, c.concurrencies.map .concurrency, c.jobs.map .job]
  -- all kinds but one drop out of each list of calls
  have hes : calls es = c := by simp [es, calls, List.filterMap_map]
  exact ⟨es, hes⟩

/-- What a workflow becomes. -/
@[mk_iff]
structure Edited (w : Workflow) (c : Calls) (w' : Workflow) : Prop where
  name : lastOf w.name c.names = w'.name
  runName : lastOf w.runName c.runNames = w'.runName
  triggers : w.triggers ++ c.triggers = w'.triggers
  permissions : lastOf w.permissions c.permissions = w'.permissions
  env : w.env.ExtendedBy Assignment.name c.envs w'.env
  defaults : lastOf w.defaults c.defaults = w'.defaults
  concurrency : lastOf w.concurrency c.concurrencies = w'.concurrency
  jobs : w.jobs.ExtendedBy Job.id c.jobs w'.jobs

variable {w w' : Workflow} {c : Calls} {e : WorkflowEdit} {es : List WorkflowEdit}

/-! ### Edits -/

/-- One edit, and others behind it. -/
theorem edited_add : w.Edited (c.add e) w' ↔ ∃ v, w.edit e = .ok v ∧ v.Edited c w' := by
  cases e with
  | env name value =>
    simp only [edit, exists_addTo_eq_ok]
    constructor
    · intro h
      obtain ⟨env, hadd, henv⟩ := Keyed.extendedBy_cons.mp h.env
      exact ⟨env, hadd, { h with env := henv }⟩
    · rintro ⟨env, hadd, h⟩
      exact { h with env := Keyed.extendedBy_cons.mpr ⟨env, hadd, h.env⟩ }
  | job j =>
    simp only [edit, exists_addTo_eq_ok]
    constructor
    · intro h
      obtain ⟨jobs, hadd, hjobs⟩ := Keyed.extendedBy_cons.mp h.jobs
      exact ⟨jobs, hadd, { h with jobs := hjobs }⟩
    · rintro ⟨jobs, hadd, h⟩
      exact { h with jobs := Keyed.extendedBy_cons.mpr ⟨jobs, hadd, h.jobs⟩ }
  | _ =>
    -- each other edit writes one part
    simp [Calls.add, edit, edited_iff]

theorem edited_nil : w.Edited (calls []) w' ↔ w = w' := by
  cases w
  cases w'
  simp [edited_iff, calls, Keyed.extendedBy_nil]

/-- The calls of a sequence of edits decide what it makes. -/
theorem describes : Describes edit calls Edited where
  nil _ _ := edited_nil
  cons _ e es _ := by
    rw [calls_cons]
    exact edited_add

/-! ### Edits that are all made -/

theorem exists_edited : (∃ w', w.Edited c w') ↔
    (∃ env, w.env.ExtendedBy Assignment.name c.envs env) ∧
      ∃ jobs, w.jobs.ExtendedBy Job.id c.jobs jobs := by
  constructor
  · rintro ⟨w', h⟩
    exact ⟨⟨w'.env, h.env⟩, w'.jobs, h.jobs⟩
  · rintro ⟨⟨env, henv⟩, jobs, hjobs⟩
    exact ⟨⟨_, _, _, _, env, _, _, jobs⟩, rfl, rfl, rfl, rfl, henv, rfl, rfl, hjobs⟩

end Workflow

/-! ### Calls -/

/-- An edit, or a job that is built from one without steps before it is added. -/
inductive WorkflowCall
  | edit (e : WorkflowEdit)
  | addBuiltJob (id : Text) (runsOn : Runner) (build : Job → Except Problem Job)

/-- The edit that a call comes to once its job is built. -/
inductive WorkflowCall.ComesTo : WorkflowCall → WorkflowEdit → Prop
  | edit (e : WorkflowEdit) : ComesTo (.edit e) e
  | addBuiltJob {id : Text} {runsOn : Runner} {build : Job → Except Problem Job} {j : Job} :
      build (Job.ofRunner id runsOn) = .ok j → ComesTo (.addBuiltJob id runsOn build) (.job j)

namespace Workflow

variable {w w' : Workflow} {k : WorkflowCall} {ks : List WorkflowCall} {e : WorkflowEdit}
variable {es : List WorkflowEdit}

/-- Makes a call. -/
def call (w : Workflow) : WorkflowCall → Except Problem Workflow
  | .edit e => w.edit e
  | .addBuiltJob id runsOn build => w.addBuiltJob id runsOn build

theorem call_eq (h : k.ComesTo e) : w.call k = w.edit e := by
  cases h with
  | edit e => rfl
  | addBuiltJob hbuild =>
    rw [call, addBuiltJob, hbuild]
    rfl

/-- A call that is made comes to an edit. -/
theorem exists_comesTo (h : w.call k = .ok w') : ∃ e, k.ComesTo e := by
  cases k with
  | edit e => exact ⟨e, .edit e⟩
  | addBuiltJob id runsOn build =>
    rw [call, addBuiltJob] at h
    rcases hbuild : build (Job.ofRunner id runsOn) with p | j
    · rw [hbuild] at h
      cases h
    · exact ⟨.job j, .addBuiltJob hbuild⟩

/-- Calls make what the edits make that they come to. -/
theorem editAll_call (h : List.Forall₂ WorkflowCall.ComesTo ks es) :
    editAll call w ks = editAll edit w es := by
  induction h generalizing w with
  | nil => rfl
  | @cons k e ks es hk _ ih =>
    show (w.call k >>= fun v => editAll call v ks) = w.edit e >>= fun v => editAll edit v es
    rw [call_eq hk]
    congr 1
    funext v
    exact ih

theorem exists_forall₂_comesTo (h : editAll call w ks = .ok w') :
    ∃ es, List.Forall₂ WorkflowCall.ComesTo ks es := by
  induction ks generalizing w with
  | nil => exact ⟨[], .nil⟩
  | cons k ks ih =>
    obtain ⟨v, hk, hks⟩ := editAll_cons_eq_ok.mp h
    obtain ⟨e, he⟩ := exists_comesTo hk
    obtain ⟨es, hes⟩ := ih hks
    exact ⟨e :: es, .cons he hes⟩

end Workflow

end WorkflowTree
