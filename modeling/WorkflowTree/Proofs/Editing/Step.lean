import WorkflowTree.Edit.Step
import WorkflowTree.Proofs.Editing.Run
import Mathlib.Tactic.MkIffOfInductiveProp

/-!
# What edits make of a step

`Step.calls` sorts a sequence of edits by what they write, and keeps the order within each kind.
`Step.Edited` says what a step becomes, and it mentions a sequence by its calls only.

* `Step.edited_add` is the rule for one edit before others, from which `Step.describes` follows;
* `Step.exists_edited` says when all edits are made;
* `Step.exists_calls` says that each choice of calls is made by some sequence.
-/

namespace WorkflowTree

/-- What is written to a step, kind by kind. -/
structure Step.Calls where
  ids : List Text
  names : List Text
  conditions : List Text
  continueOnErrors : List Flag
  timeouts : List Minutes
  envs : List Assignment
  shells : List Text
  workingDirectories : List Text
  inputs : List Assignment

/-- What a script or an action becomes. What goes with the other of the two is never written. -/
def Exec.Edited (shells workingDirectories : List Text) (inputs : List Assignment) :
    Exec → Exec → Prop
  | .run r, x => inputs = [] ∧ x = .run { r with
      shell := lastOf r.shell shells
      workingDirectory := lastOf r.workingDirectory workingDirectories }
  | .action a, x => shells = [] ∧ workingDirectories = [] ∧
      ∃ m, a.inputs.ExtendedBy Assignment.name inputs m ∧ x = .action { a with inputs := m }

theorem Exec.edited_nil {x y : Exec} : x.Edited [] [] [] y ↔ x = y := by
  cases x <;> simp [Exec.Edited, Keyed.extendedBy_nil, eq_comm]

namespace Step

/-- The calls of a sequence of edits. -/
def calls (es : List StepEdit) : Calls where
  ids := es.filterMap fun | .id t => some t | _ => none
  names := es.filterMap fun | .name t => some t | _ => none
  conditions := es.filterMap fun | .condition t => some t | _ => none
  continueOnErrors := es.filterMap fun | .continueOnError f => some f | _ => none
  timeouts := es.filterMap fun | .timeout m => some m | _ => none
  envs := es.filterMap fun | .env name value => some ⟨name, value⟩ | _ => none
  shells := es.filterMap fun | .shell t => some t | _ => none
  workingDirectories := es.filterMap fun | .workingDirectory t => some t | _ => none
  inputs := es.filterMap fun | .input name value => some ⟨name, value⟩ | _ => none

/-- The calls when one edit is made before the others. -/
def Calls.add (c : Calls) : StepEdit → Calls
  | .id t => { c with ids := t :: c.ids }
  | .name t => { c with names := t :: c.names }
  | .condition t => { c with conditions := t :: c.conditions }
  | .continueOnError f => { c with continueOnErrors := f :: c.continueOnErrors }
  | .timeout m => { c with timeouts := m :: c.timeouts }
  | .env name value => { c with envs := ⟨name, value⟩ :: c.envs }
  | .shell t => { c with shells := t :: c.shells }
  | .workingDirectory t => { c with workingDirectories := t :: c.workingDirectories }
  | .input name value => { c with inputs := ⟨name, value⟩ :: c.inputs }

theorem calls_cons (e : StepEdit) (es : List StepEdit) : calls (e :: es) = (calls es).add e := by
  cases e <;> rfl

/-- Each choice of calls is made by some sequence. -/
theorem exists_calls (c : Calls) : ∃ es, calls es = c := by
  let es : List StepEdit := List.flatten [
    c.ids.map .id, c.names.map .name, c.conditions.map .condition,
    c.continueOnErrors.map .continueOnError, c.timeouts.map .timeout,
    c.envs.map fun a => .env a.name a.value, c.shells.map .shell,
    c.workingDirectories.map .workingDirectory, c.inputs.map fun a => .input a.name a.value]
  -- all kinds but one drop out of each list of calls
  have hes : calls es = c := by simp [es, calls, List.filterMap_map]
  exact ⟨es, hes⟩

/-- What a step becomes. -/
@[mk_iff]
structure Edited (s : Step) (c : Calls) (s' : Step) : Prop where
  id : lastOf s.id c.ids = s'.id
  condition : lastOf s.condition c.conditions = s'.condition
  name : lastOf s.name c.names = s'.name
  exec : s.exec.Edited c.shells c.workingDirectories c.inputs s'.exec
  env : s.env.ExtendedBy Assignment.name c.envs s'.env
  continueOnError : lastOf s.continueOnError c.continueOnErrors = s'.continueOnError
  timeout : lastOf s.timeout c.timeouts = s'.timeout
  pos : s.pos = s'.pos

variable {s s' : Step} {c : Calls} {e : StepEdit} {es : List StepEdit}

/-! ### Edits -/

/-- One edit, and others behind it. -/
theorem edited_add : s.Edited (c.add e) s' ↔ ∃ t, s.edit e = .ok t ∧ t.Edited c s' := by
  cases e with
  | env name value =>
    simp only [edit, exists_addTo_eq_ok]
    constructor
    · intro h
      obtain ⟨env, hadd, henv⟩ := Keyed.extendedBy_cons.mp h.env
      exact ⟨env, hadd, { h with env := henv }⟩
    · rintro ⟨env, hadd, h⟩
      exact { h with env := Keyed.extendedBy_cons.mpr ⟨env, hadd, h.env⟩ }
  | shell t =>
    -- an action refuses it
    rcases s with ⟨_, _, _, r | a⟩ <;> simp [Calls.add, edit, edited_iff, Exec.Edited]
  | workingDirectory t =>
    rcases s with ⟨_, _, _, r | a⟩ <;> simp [Calls.add, edit, edited_iff, Exec.Edited]
  | input name value =>
    rcases s with ⟨_, _, _, r | a⟩
    · -- a script refuses it
      simp [Calls.add, edit, edited_iff, Exec.Edited]
    · simp only [edit, exists_addTo_eq_ok]
      constructor
      · intro h
        obtain ⟨hshells, hdirectories, m, hm, hexec⟩ := h.exec
        obtain ⟨inputs, hadd, hinputs⟩ := Keyed.extendedBy_cons.mp hm
        exact ⟨inputs, hadd, { h with exec := ⟨hshells, hdirectories, m, hinputs, hexec⟩ }⟩
      · rintro ⟨inputs, hadd, h⟩
        obtain ⟨hshells, hdirectories, m, hinputs, hexec⟩ := h.exec
        exact { h with exec := ⟨hshells, hdirectories, m,
          Keyed.extendedBy_cons.mpr ⟨inputs, hadd, hinputs⟩, hexec⟩ }
  | _ =>
    -- each other edit writes one part
    simp [Calls.add, edit, edited_iff]

theorem edited_nil : s.Edited (calls []) s' ↔ s = s' := by
  cases s
  cases s'
  simp [edited_iff, calls, Exec.edited_nil, Keyed.extendedBy_nil]

/-- The calls of a sequence of edits decide what it makes. -/
theorem describes : Describes edit calls Edited where
  nil _ _ := edited_nil
  cons _ e es _ := by
    rw [calls_cons]
    exact edited_add

/-! ### Edits that are all made -/

theorem exists_edited : (∃ s', s.Edited c s') ↔
    (∃ env, s.env.ExtendedBy Assignment.name c.envs env) ∧
      ∃ x, s.exec.Edited c.shells c.workingDirectories c.inputs x := by
  constructor
  · rintro ⟨s', h⟩
    exact ⟨⟨s'.env, h.env⟩, s'.exec, h.exec⟩
  · rintro ⟨⟨env, henv⟩, exec, hexec⟩
    exact ⟨⟨_, _, _, exec, env, _, _, _⟩, rfl, rfl, rfl, hexec, henv, rfl, rfl, rfl⟩

end Step

end WorkflowTree
