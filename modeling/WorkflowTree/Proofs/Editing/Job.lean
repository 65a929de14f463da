import WorkflowTree.Edit.Job
import WorkflowTree.Proofs.Editing.Run
import Mathlib.Tactic.MkIffOfInductiveProp

/-!
# What edits make of a job

As for steps, `Job.calls` sorts a sequence of edits by what they write, and `Job.Edited` says what
a job becomes by these calls.

* `Job.edited_add` is the rule for one edit before others, from which `Job.describes` follows;
* `Job.exists_edited` says when all edits are made;
* `Job.exists_calls` says that each choice of calls is made by some sequence.
-/

namespace WorkflowTree

/-- What is written to a job, kind by kind. -/
structure Job.Calls where
  names : List Text
  needs : List Text
  permissions : List Permissions
  environments : List Environment
  concurrencies : List Concurrency
  outputs : List Assignment
  envs : List Assignment
  defaults : List Defaults
  conditions : List Text
  steps : List Step
  timeouts : List Minutes
  strategies : List Strategy
  continueOnErrors : List Flag
  containers : List Container
  services : List Service

namespace Job

/-- The calls of a sequence of edits. -/
def calls (es : List JobEdit) : Calls where
  names := es.filterMap fun | .name t => some t | _ => none
  needs := es.filterMap fun | .need id => some id | _ => none
  permissions := es.filterMap fun | .permissions p => some p | _ => none
  environments := es.filterMap fun | .environment e => some e | _ => none
  concurrencies := es.filterMap fun | .concurrency c => some c | _ => none
  outputs := es.filterMap fun | .output name value => some ⟨name, value⟩ | _ => none
  envs := es.filterMap fun | .env name value => some ⟨name, value⟩ | _ => none
  defaults := es.filterMap fun | .defaults d => some d | _ => none
  conditions := es.filterMap fun | .condition t => some t | _ => none
  steps := es.filterMap fun | .step s => some s | _ => none
  timeouts := es.filterMap fun | .timeout m => some m | _ => none
  strategies := es.filterMap fun | .strategy s => some s | _ => none
  continueOnErrors := es.filterMap fun | .continueOnError f => some f | _ => none
  containers := es.filterMap fun | .container c => some c | _ => none
  services := es.filterMap fun | .service s => some s | _ => none

/-- The calls when one edit is made before the others. -/
def Calls.add (c : Calls) : JobEdit → Calls
  | .name t => { c with names := t :: c.names }
  | .need id => { c with needs := id :: c.needs }
  | .condition t => { c with conditions := t :: c.conditions }
  | .step s => { c with steps := s :: c.steps }
  | .permissions p => { c with permissions := p :: c.permissions }
  | .environment e => { c with environments := e :: c.environments }
  | .concurrency g => { c with concurrencies := g :: c.concurrencies }
  | .defaults d => { c with defaults := d :: c.defaults }
  | .strategy s => { c with strategies := s :: c.strategies }
  | .timeout m => { c with timeouts := m :: c.timeouts }
  | .continueOnError f => { c with continueOnErrors := f :: c.continueOnErrors }
  | .container d => { c with containers := d :: c.containers }
  | .output name value => { c with outputs := ⟨name, value⟩ :: c.outputs }
  | .env name value => { c with envs := ⟨name, value⟩ :: c.envs }
  | .service s => { c with services := s :: c.services }

theorem calls_cons (e : JobEdit) (es : List JobEdit) : calls (e :: es) = (calls es).add e := by
  cases e <;> rfl

/-- Each choice of calls is made by some sequence. -/
theorem exists_calls (c : Calls) : ∃ es, calls es = c := by
  let es : List JobEdit := List.flatten [
    c.names.map .name, c.needs.map .need, c.permissions.map .permissions,
    c.environments.map .environment, c.concurrencies.map .concurrency,
    c.outputs.map fun a => .output a.name a.value, c.envs.map fun a => .env a.name a.value,
    c.defaults.map .defaults, c.conditions.map .condition, c.steps.map .step,
    c.timeouts.map .timeout, c.strategies.map .strategy,
    c.continueOnErrors.map .continueOnError, c.containers.map .container,
    c.services.map .service]
  -- all kinds but one drop out of each list of calls
  have hes : calls es = c := by
    simp only [es, calls, List.flatten_cons, List.flatten_nil, List.filterMap_append,
      List.filterMap_map, Function.comp_apply, List.filterMap_some, List.filterMap_none,
      List.append_nil, List.nil_append, List.filterMap_eq_map', List.map_id_fun', id_eq]
  exact ⟨es, hes⟩

/-- What a job becomes. -/
@[mk_iff]
structure Edited (j : Job) (c : Calls) (j' : Job) : Prop where
  id : j.id = j'.id
  name : lastOf j.name c.names = j'.name
  needs : j.needs ++ c.needs = j'.needs
  runsOn : j.runsOn = j'.runsOn
  permissions : lastOf j.permissions c.permissions = j'.permissions
  environment : lastOf j.environment c.environments = j'.environment
  concurrency : lastOf j.concurrency c.concurrencies = j'.concurrency
  outputs : j.outputs.ExtendedBy Assignment.name c.outputs j'.outputs
  env : j.env.ExtendedBy Assignment.name c.envs j'.env
  defaults : lastOf j.defaults c.defaults = j'.defaults
  condition : lastOf j.condition c.conditions = j'.condition
  steps : j.steps ++ c.steps = j'.steps
  timeout : lastOf j.timeout c.timeouts = j'.timeout
  strategy : lastOf j.strategy c.strategies = j'.strategy
  continueOnError : lastOf j.continueOnError c.continueOnErrors = j'.continueOnError
  container : lastOf j.container c.containers = j'.container
  services : j.services.ExtendedBy Service.name c.services j'.services
  pos : j.pos = j'.pos

variable {j j' : Job} {c : Calls} {e : JobEdit} {es : List JobEdit}

/-! ### Edits -/

/-- One edit, and others behind it. -/
theorem edited_add : j.Edited (c.add e) j' ↔ ∃ i, j.edit e = .ok i ∧ i.Edited c j' := by
  cases e with
  | output name value =>
    simp only [edit, exists_addTo_eq_ok]
    constructor
    · intro h
      obtain ⟨outputs, hadd, houtputs⟩ := Keyed.extendedBy_cons.mp h.outputs
      exact ⟨outputs, hadd, { h with outputs := houtputs }⟩
    · rintro ⟨outputs, hadd, h⟩
      exact { h with outputs := Keyed.extendedBy_cons.mpr ⟨outputs, hadd, h.outputs⟩ }
  | env name value =>
    simp only [edit, exists_addTo_eq_ok]
    constructor
    · intro h
      obtain ⟨env, hadd, henv⟩ := Keyed.extendedBy_cons.mp h.env
      exact ⟨env, hadd, { h with env := henv }⟩
    · rintro ⟨env, hadd, h⟩
      exact { h with env := Keyed.extendedBy_cons.mpr ⟨env, hadd, h.env⟩ }
  | service s =>
    simp only [edit, exists_addTo_eq_ok]
    constructor
    · intro h
      obtain ⟨services, hadd, hservices⟩ := Keyed.extendedBy_cons.mp h.services
      exact ⟨services, hadd, { h with services := hservices }⟩
    · rintro ⟨services, hadd, h⟩
      exact { h with services := Keyed.extendedBy_cons.mpr ⟨services, hadd, h.services⟩ }
  | _ =>
    -- each other edit writes one part
    simp [Calls.add, edit, edited_iff]

theorem edited_nil : j.Edited (calls []) j' ↔ j = j' := by
  cases j
  cases j'
  simp [edited_iff, calls, Keyed.extendedBy_nil]

/-- The calls of a sequence of edits decide what it makes. -/
theorem describes : Describes edit calls Edited where
  nil _ _ := edited_nil
  cons _ e es _ := by
    rw [calls_cons]
    exact edited_add

/-! ### Edits that are all made -/

theorem exists_edited : (∃ j', j.Edited c j') ↔
    (∃ outputs, j.outputs.ExtendedBy Assignment.name c.outputs outputs) ∧
      (∃ env, j.env.ExtendedBy Assignment.name c.envs env) ∧
        ∃ services, j.services.ExtendedBy Service.name c.services services := by
  constructor
  · rintro ⟨j', h⟩
    exact ⟨⟨j'.outputs, h.outputs⟩, ⟨j'.env, h.env⟩, j'.services, h.services⟩
  · rintro ⟨⟨outputs, houtputs⟩, ⟨env, henv⟩, services, hservices⟩
    exact ⟨⟨_, _, _, _, _, _, _, outputs, env, _, _, _, _, _, _, _, services, _⟩, rfl, rfl, rfl,
      rfl, rfl, rfl, rfl, houtputs, henv, rfl, rfl, rfl, rfl, rfl, rfl, rfl, hservices, rfl⟩

end Job

end WorkflowTree
