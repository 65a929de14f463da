import WorkflowTree.Proofs.Acceptance.Workflow
import WorkflowTree.Proofs.Simulation.Readers

/-!
# Reading workflows that are related by a simulation

Steps, jobs and the whole workflow: roots that are related under the schema of workflows are read
alike (`Workflow.transfers_read`).  If the simulation is about all runs, the two roots are parsed
with the same result (`Workflow.parse_of_transfers`); if not, what the first one is accepted with
the second one is accepted with as well (`Workflow.parse_eq_ok_of_transfers`).
-/

namespace WorkflowTree

open Checked Section Simulation

variable {always : Prop} {policy policy' : Policy} {n n' : Node} {what owner : String}
variable {σ : Simulation always policy policy'} {sec sec' : Section} {pos : Position} {id : Text}

/-! ### Steps -/

theorem ActionUse.transfers_readInputs (h : σ.Rel .any n n') :
    (readInputs owner n).Transfers always (readInputs owner n') :=
  transfers_readAssignments (fun key => s!"input \"{key.value}\" in {owner}") h

namespace Step

/-- What says what a step does is the same, but what is passed to an action is still to be read. -/
structure ExecFields.Related (σ : Simulation always policy policy') (f f' : ExecFields) : Prop where
  run : f.run = f'.run
  uses : f.uses = f'.uses
  inputs : Option.Rel (fun x y => x.1 = y.1 ∧ σ.Rel .any x.2 y.2) f.inputs f'.inputs
  shell : f.shell = f'.shell
  workingDirectory : f.workingDirectory = f'.workingDirectory

theorem transfers_readExec {s : Schema} {f f' : ExecFields}
    (hs : σ.Sections s sec sec') (h : f.Related σ f') :
    (readExec owner sec pos f).Transfers always (readExec owner sec' pos f') := by
  rcases f with ⟨run, uses, inputs, shell, dir⟩
  rcases f' with ⟨run', uses', inputs', shell', dir'⟩
  obtain ⟨hrun, huses, hinputs, hshell, hdir⟩ := h
  cases hrun
  cases huses
  cases hshell
  cases hdir
  rcases run with - | ⟨runKey, script⟩ <;> rcases uses with - | ⟨usesKey, action⟩
  · -- without a value for either key, the keys decide whether one is missed
    apply transfers_of_eq
    simp only [readExec, hs.alike.has]
  · refine (transfers_of_eq rfl).bind fun _ => ?_
    cases hinputs with
    | none => exact transfers_of_eq rfl
    | @some x y hxy => exact (ActionUse.transfers_readInputs hxy.2).bind fun inputs => .pure rfl
  · -- a script takes no inputs, and only their key is looked at
    have hkeys : inputs.toList.map (fun i => exclusive owner runKey i.1) =
        inputs'.toList.map fun i => exclusive owner runKey i.1 := by
      cases hinputs with
      | none => rfl
      | @some x y hxy => simp [hxy.1]
    apply transfers_of_eq
    simp only [readExec, hkeys]
  · exact transfers_of_eq rfl

theorem transfers_readFields (hs : σ.Sections Step.schema sec sec') :
    (readFields what sec pos).TransfersBy always sec (fun x y => x.1.Related σ y.1 ∧ x.2 = y.2)
      (readFields what sec' pos) := by
  refine .bindEq (transfers_field hs rfl fun _ _ => transfers_readText) fun id => ?_
  refine .bindEq (transfers_field hs rfl fun _ _ => transfers_readText) fun condition => ?_
  refine .bindEq (transfers_field hs rfl fun _ _ => transfers_readText) fun name => ?_
  refine .bindEq (transfers_fieldWithKey hs rfl fun _ _ => transfers_readText) fun run => ?_
  refine .bindEq (transfers_fieldWithKey hs rfl fun _ _ => transfers_readText) fun uses => ?_
  refine .bind (transfers_kept hs rfl) fun inputs inputs' hinputs => ?_
  refine .bindEq (transfers_fieldWithKey hs rfl fun _ _ => transfers_readText) fun shell => ?_
  refine .bindEq (transfers_fieldWithKey hs rfl fun _ _ => transfers_readText) fun dir => ?_
  refine .bindEq (transfers_field hs rfl fun _ _ => transfers_readEnv) fun env => ?_
  refine .bindEq (transfers_field hs rfl fun _ _ => transfers_readPlain) fun continues => ?_
  refine .bindEq (transfers_field hs rfl fun _ _ => transfers_readPlain) fun timeout => ?_
  exact .pure ⟨⟨rfl, rfl, hinputs, rfl, rfl⟩, rfl⟩

theorem transfers_read (h : σ.Rel Step.schema n n') :
    (Step.read policy what n).Transfers always (Step.read policy' what n') := by
  have hsimilar := (σ.step h).resolve_left not_false
  unfold Step.read
  rw [hsimilar.pos]
  apply transfers_within hsimilar
  intro sec sec' hs
  refine TransfersBy.bind (transfers_fill σ hs (nodup_readFields ..) (transfers_readFields hs)) ?_
  rintro ⟨fields, complete⟩ ⟨fields', _⟩ ⟨hfields, rfl⟩
  exact (transfers_readExec hs hfields).map

/-- Steps are counted alike. -/
theorem transfers_readList (h : σ.Rel (.items Step.schema) n n') :
    (readList policy owner n).Transfers always (readList policy' owner n') := by
  have hsimilar := (σ.step h).resolve_left not_false
  unfold readList
  obtain ⟨hn, hn'⟩ | ⟨items, items', hn, hn', hitems⟩ := optionRel_cases hsimilar.items?
  · simp only [hn, hn']
    exact transfers_mismatch hsimilar _ _
  · simp only [hn, hn']
    refine Transfers.map (transfers_collect (forall₂_zipIdx hitems 0) ?_)
    rintro ⟨item, i⟩ ⟨item', _⟩ ⟨hitem, rfl⟩
    exact transfers_read hitem

end Step

/-! ### Jobs -/

namespace Runner

/-- One label is enough for a runner, so that nothing is said of the node itself. -/
theorem read_of_label {label : Text} (hpos : n'.pos = n.pos)
    (h : readLabels what n = pure (some [label])) (h' : readLabels what n' = pure (some [label])) :
    Runner.read what n = Runner.read what n' := by
  have hlabel : ofLabels? [label] n.pos ≠ none := (ofLabels?_ne_none n.pos).mpr (.inl rfl)
  obtain ⟨r, hr⟩ := Option.ne_none_iff_exists'.mp hlabel
  unfold Runner.read
  rw [h, h', hpos]
  simp only [Checked.andThen, value_pure, hr]

theorem transfers_read (h : σ.Rel .labels n n') :
    (Runner.read what n).Transfers always (Runner.read what n') := by
  obtain ⟨⟨text, htext⟩, rfl⟩ | hsimilar := σ.step h
  · cases n with
    | scalar => exact transfers_of_eq (read_of_label rfl rfl rfl)
    | _ => cases htext
  have hlabels : (readLabels what n).Transfers always (readLabels what n') :=
    transfers_textOrTexts what _ hsimilar rfl
  unfold Runner.read
  rw [hsimilar.pos]
  apply hlabels.andThen
  intro labels
  rcases ofLabels? labels n.pos with - | r
  · exact transfers_mismatch hsimilar _ _
  · exact transfers_of_eq rfl

end Runner

namespace Job

theorem transfers_readOutputs (h : σ.Rel .any n n') :
    (readOutputs what n).Transfers always (readOutputs what n') :=
  transfers_readAssignments (fun key => s!"output \"{key.value}\"") h

theorem transfers_readFields (hs : σ.Sections Job.schema sec sec') :
    (readFields policy what id sec).TransfersBy always sec Eq
      (readFields policy' what id sec') := by
  refine .bindEq (transfers_field hs rfl fun _ _ => transfers_readText) fun name => ?_
  refine .bindEq (transfers_field hs rfl fun _ _ => transfers_readTextOrTexts) fun needs => ?_
  refine .bindEq (transfers_field hs rfl fun _ _ => Runner.transfers_read) fun runsOn => ?_
  refine .bindEq (transfers_field hs rfl fun _ _ => Permissions.transfers_read) fun grants => ?_
  refine .bindEq (transfers_field hs rfl fun _ _ => Environment.transfers_read) fun site => ?_
  refine .bindEq (transfers_field hs rfl fun _ _ => Concurrency.transfers_read) fun group => ?_
  refine .bindEq (transfers_field hs rfl fun _ _ => transfers_readOutputs) fun outputs => ?_
  refine .bindEq (transfers_field hs rfl fun _ _ => transfers_readEnv) fun env => ?_
  refine .bindEq (transfers_field hs rfl fun _ _ => Defaults.transfers_read) fun defaults => ?_
  refine .bindEq (transfers_field hs rfl fun _ _ => transfers_readText) fun condition => ?_
  refine .bindEq (transfers_field hs rfl fun _ _ => Step.transfers_readList) fun steps => ?_
  refine .bindEq (transfers_field hs rfl fun _ _ => transfers_readPlain) fun timeout => ?_
  refine .bindEq (transfers_field hs rfl fun _ _ => Strategy.transfers_read) fun strategy => ?_
  refine .bindEq (transfers_field hs rfl fun _ _ => transfers_readPlain) fun continues => ?_
  refine .bindEq (transfers_field hs rfl fun _ _ => Container.transfers_read) fun container => ?_
  refine .bindEq (transfers_field hs rfl fun _ _ => transfers_readServices) fun services => ?_
  exact .pure rfl

theorem transfers_read (h : σ.Rel Job.schema n n') :
    (Job.read policy id n).Transfers always (Job.read policy' id n') := by
  have hsimilar := (σ.step h).resolve_left not_false
  apply transfers_withinOwner hsimilar rfl rfl
  intro sec sec' hs
  refine Transfers.bind (transfers_fill σ hs (nodup_readFields ..) ?_) fun fields => ?_
  · exact transfers_readFields hs
  · refine (transfers_require hs _ _).bind fun runsOn => ?_
    exact (transfers_require hs _ _).bind fun steps => .pure rfl

theorem transfers_readAll (h : σ.Rel (.free fun _ => Job.schema) n n') :
    (readAll policy n).Transfers always (readAll policy' n') := by
  apply transfers_free _ ((σ.step h).resolve_left not_false) fun _ => rfl
  intro e e' hkey hvalue
  rw [hkey]
  exact transfers_read hvalue

end Job

/-! ### Workflows -/

namespace Workflow

variable {root root' : Node}

theorem transfers_readFields (hs : σ.Sections Workflow.schema sec sec') :
    (readFields policy what sec).TransfersBy always sec Eq (readFields policy' what sec') := by
  refine .bindEq (transfers_field hs rfl fun _ _ => transfers_readText) fun name => ?_
  refine .bindEq (transfers_field hs rfl fun _ _ => transfers_readText) fun runName => ?_
  refine .bindEq (transfers_field hs rfl fun _ _ => Trigger.transfers_readList) fun triggers => ?_
  refine .bindEq (transfers_field hs rfl fun _ _ => Permissions.transfers_read) fun grants => ?_
  refine .bindEq (transfers_field hs rfl fun _ _ => transfers_readEnv) fun env => ?_
  refine .bindEq (transfers_field hs rfl fun _ _ => Defaults.transfers_read) fun defaults => ?_
  refine .bindEq (transfers_field hs rfl fun _ _ => Concurrency.transfers_read) fun group => ?_
  refine .bindEq (transfers_field hs rfl fun _ _ => Job.transfers_readAll) fun jobs => ?_
  exact .pure rfl

theorem transfers_read (h : σ.Rel Workflow.schema root root') :
    (Workflow.read policy root).Transfers always (Workflow.read policy' root') := by
  have hsimilar := (σ.step h).resolve_left not_false
  unfold Workflow.read
  rw [hsimilar.pos]
  apply transfers_withinOwner hsimilar rfl rfl
  intro sec sec' hs
  refine Transfers.bind (transfers_fill σ hs (nodup_readFields ..) ?_) fun fields => ?_
  · exact transfers_readFields hs
  · refine (transfers_require hs _ _).bind fun triggers => ?_
    exact (transfers_require hs _ _).bind fun jobs => .pure rfl

/-- If all runs are related, the same is read. -/
theorem read_of_transfers
    (h : (Workflow.read policy root).Transfers True (Workflow.read policy' root')) :
    Workflow.read policy' root' = Workflow.read policy root := by
  obtain ⟨hvalue, hproblems⟩ := h (.inl trivial)
  exact Checked.ext hvalue.symm hproblems

theorem parse_of_transfers (hbudget : policy'.budget = policy.budget)
    (h : (Workflow.read policy root).Transfers True (Workflow.read policy' root')) :
    parse policy' root' = parse policy root := by
  simp only [parse, read_of_transfers h, Policy.keep, hbudget]

/-- What is accepted transfers with its workflow. -/
theorem parse_eq_ok_of_transfers {w : Workflow}
    (h : (Workflow.read policy root).Transfers always (Workflow.read policy' root'))
    (hw : parse policy root = .ok w) : parse policy' root' = .ok w := by
  obtain ⟨hclean, hvalue⟩ := parse_eq_ok_iff.mp hw
  obtain ⟨hvalue', hproblems⟩ := h (.inr hclean)
  exact parse_eq_ok_iff.mpr ⟨hproblems.trans hclean, hvalue'.symm.trans hvalue⟩

end Workflow

end WorkflowTree
