import WorkflowTree.Proofs.Relocation.Readers
import WorkflowTree.Reading.Workflow

/-!
# Parsing a relocated file

Steps, jobs and the whole file.  A file whose text stands at other places, in the same reading order,
gives the same workflow or the same problems at these places (`Workflow.parse_relocate`).

Places are compared at three points: two keys that say what a step does, two forms of permissions,
and the problems of a file.  A relocation keeps all of these comparisons.
-/

namespace WorkflowTree

open Checked Section

variable {what owner : String} {policy : Policy} {s : Section} {pos : Position}

/-! ### Steps -/

namespace ActionUse

theorem ofAssignments_relocate (f : Relocation) (action : Text) (inputs : Assignments) :
    ofAssignments (relocate f action) (relocate f inputs) =
      relocate f (ofAssignments action inputs) := by
  have hinputs : (relocate f inputs).filterMap (fun key a =>
      if [entrypointKey, argsKey].contains key then none else some a) =
        relocate f (inputs.filterMap fun key a =>
          if [entrypointKey, argsKey].contains key then none else some a) := by
    refine Keyed.filterMap_relocate f inputs fun key a => ?_
    split <;> rfl
  have hvalue : ∀ key, ((relocate f inputs).find? key).map Assignment.value =
      relocate f ((inputs.find? key).map Assignment.value) := by
    intro key
    rw [Keyed.find?_relocate]
    rcases inputs.find? key with - | a <;> rfl
  unfold ofAssignments
  rw [hinputs, hvalue, hvalue]
  rfl

theorem moved_readInputs (f : Relocation) (owner : String) (n : Node) :
    (readInputs owner n).Moved f (readInputs owner (n.relocate f)) :=
  moved_free fun e => Assignment.moved_read f _ e

end ActionUse

namespace Step

instance : Placed ExecFields :=
  ⟨fun f ⟨run, uses, inputs, shell, workingDirectory⟩ =>
    ⟨relocate f run, relocate f uses, relocate f inputs, relocate f shell,
      relocate f workingDirectory⟩⟩

theorem action_relocate (f : Relocation) (action : Text) (inputs : Option Assignments) :
    some (Exec.action (.ofAssignments (relocate f action) ((relocate f inputs).getD .empty))) =
      relocate f (some (Exec.action (.ofAssignments action (inputs.getD .empty)))) := by
  have hinputs : (relocate f inputs).getD .empty = relocate f (inputs.getD .empty) := by
    cases inputs <;> rfl
  rw [hinputs, ActionUse.ofAssignments_relocate]
  rfl

/-- Of two keys that exclude each other the same one comes first. -/
theorem moved_readExec (f : Relocation) (owner : String) (s : Section) (pos : Position)
    (fields : ExecFields) : (readExec owner s pos fields).Moved f
      (readExec owner (relocate f s) (f pos) (relocate f fields)) := by
  obtain ⟨run, uses, inputs, shell, dir⟩ := fields
  rcases run with - | ⟨runKey, script⟩ <;> rcases uses with - | ⟨usesKey, action⟩
  · -- without a value for either key, the keys decide whether one is missed
    show (do
        if !(s.has "run" || s.has "uses") then report (.missing owner "run or uses") pos
        return none : Checked (Option Exec)).Moved f
      (do
        if !((relocate f s).has "run" || (relocate f s).has "uses") then
          report (.missing owner "run or uses") (f pos)
        return none)
    rw [has_relocate, has_relocate]
    split <;> exact ⟨rfl, rfl⟩
  · -- an action: each setting of a script is in the way at its own key
    have hkeys : ((relocate f shell).toList ++ (relocate f dir).toList).map
          (fun k => exclusive owner (relocate f usesKey) k.1) =
        relocate f ((shell.toList ++ dir.toList).map fun k => exclusive owner usesKey k.1) := by
      cases shell <;> cases dir <;> rfl
    refine Relocated.bind (R := fun _ _ => True) (d := reportAll _) (hkeys ▸ relocated_reportAll _)
      fun _ _ _ => ?_
    rcases inputs with - | ⟨inputsKey, n⟩
    · exact .pure (action_relocate f action none)
    · refine (ActionUse.moved_readInputs f owner n).bind fun inputs => ?_
      exact .pure (action_relocate f action inputs)
  · -- a script: inputs are in the way
    have hkeys : (relocate f inputs).toList.map
          (fun i => exclusive owner (relocate f runKey) i.1) =
        relocate f (inputs.toList.map fun i => exclusive owner runKey i.1) := by
      cases inputs <;> rfl
    refine Relocated.bind (R := fun _ _ => True) (d := reportAll _) (hkeys ▸ relocated_reportAll _)
      fun _ _ _ => ?_
    exact .pure (by cases shell <;> cases dir <;> rfl)
  · -- both: the places of the keys are compared
    refine ⟨rfl, ?_⟩
    show [if (f runKey.pos).before (f usesKey.pos) then _ else _] ++ [] =
      relocate f ([if runKey.pos.before usesKey.pos then _ else _] ++ [])
    rw [f.before_eq]
    split <;> rfl

/-- The step that the other keys make of what it does moves with it. -/
theorem relocated_readFields (f : Relocation) (what : String) (s : Section) (pos : Position) :
    (readFields what s pos).Relocated f
      (fun x y => y.1 = relocate f x.1 ∧ ∀ exec, y.2 (relocate f exec) = relocate f (x.2 exec))
      (readFields what (relocate f s) (f pos)) := by
  refine (moved_field (moved_readText f _) s).bind fun id => ?_
  refine (moved_field (moved_readText f _) s).bind fun condition => ?_
  refine (moved_field (moved_readText f _) s).bind fun name => ?_
  refine (moved_fieldWithKey (moved_readText f _) s).bind fun run => ?_
  refine (moved_fieldWithKey (moved_readText f _) s).bind fun uses => ?_
  refine (moved_fieldWithKey (fun v => moved_pure (some v)) s).bind fun inputs => ?_
  refine (moved_fieldWithKey (moved_readText f _) s).bind fun shell => ?_
  refine (moved_fieldWithKey (moved_readText f _) s).bind fun dir => ?_
  refine (moved_field (moved_readEnv f _) s).bind fun env => ?_
  refine (moved_field (moved_readFlag f _) s).bind fun continueOnError => ?_
  refine (moved_field (moved_readMinutes f _) s).bind fun timeout => ?_
  refine .pure ⟨rfl, fun exec => ?_⟩
  cases env <;> rfl

theorem moved_read (f : Relocation) (policy : Policy) (what : String) (n : Node) :
    (Step.read policy what n).Moved f (Step.read policy what (n.relocate f)) := by
  unfold Step.read
  rw [Node.pos_relocate]
  refine moved_within fun s => ?_
  refine Relocated.bind (relocated_fill (relocated_readFields f what s n.pos) s) ?_
  rintro ⟨fields, complete⟩ ⟨_, complete'⟩ ⟨rfl, hcomplete⟩
  exact (moved_readExec f what s n.pos fields).optionMap hcomplete

theorem moved_readList (f : Relocation) (policy : Policy) (owner : String) (n : Node) :
    (readList policy owner n).Moved f (readList policy owner (n.relocate f)) := by
  unfold readList
  rw [Node.items?_relocate]
  rcases n.items? with - | items
  · exact moved_mismatch f n _ _
  · -- steps are named by their numbers, not by their places
    have hitems : (items.map (Node.relocate f)).zipIdx =
        items.zipIdx.map (Prod.map (Node.relocate f) fun i => i) := List.zipIdx_map ..
    show (some <$> collect _).Moved f (some <$> collect ((items.map (Node.relocate f)).zipIdx.map _))
    rw [hitems]
    exact (moved_collect (fun (item, i) => moved_read f policy _ item) items.zipIdx).some

end Step

/-! ### Jobs -/

namespace Runner

theorem ofLabels?_relocate (f : Relocation) (labels : List Text) (pos : Position) :
    ofLabels? (relocate f labels) (f pos) = relocate f (ofLabels? labels pos) := by
  have hany : (relocate f labels).any (fun l => l.value == selfHostedLabel) =
      labels.any fun l => l.value == selfHostedLabel := List.any_map ..
  have hothers : (relocate f labels).filter (fun l => l.value != selfHostedLabel) =
      relocate f (labels.filter fun l => l.value != selfHostedLabel) := List.filter_map ..
  unfold ofLabels?
  rw [hany, hothers]
  split
  · rfl
  · rcases labels with - | ⟨label, - | ⟨label', labels⟩⟩ <;> rfl

theorem moved_read (f : Relocation) (what : String) (n : Node) :
    (Runner.read what n).Moved f (Runner.read what (n.relocate f)) := by
  have hlabels : (readLabels what n).Moved f (readLabels what (n.relocate f)) :=
    moved_textOrTexts f what _ n
  unfold Runner.read
  refine hlabels.andThen fun labels => ?_
  rw [Node.pos_relocate, ofLabels?_relocate]
  rcases ofLabels? labels n.pos with - | r
  · exact moved_mismatch f n _ _
  · exact moved_pure (some r)

end Runner

namespace Job

theorem moved_readOutputs (f : Relocation) (what : String) (n : Node) :
    (readOutputs what n).Moved f (readOutputs what (n.relocate f)) :=
  moved_free fun e => Assignment.moved_read f _ e

/-- The job that the other keys make of the required ones moves with these. -/
theorem relocated_readFields (f : Relocation) (policy : Policy) (what : String) (id : Text)
    (s : Section) : (readFields policy what id s).Relocated f
      (fun x y => y.1 = relocate f x.1 ∧ y.2.1 = relocate f x.2.1 ∧
        ∀ runsOn steps, y.2.2 (relocate f runsOn) (relocate f steps) =
          relocate f (x.2.2 runsOn steps))
      (readFields policy what (relocate f id) (relocate f s)) := by
  refine (moved_field (moved_readText f _) s).bind fun name => ?_
  refine (moved_field (moved_readTextOrTexts f _) s).bind fun needs => ?_
  refine (moved_field (Runner.moved_read f _) s).bind fun runsOn => ?_
  refine (moved_field (Permissions.moved_read f what) s).bind fun permissions => ?_
  refine (moved_field (Environment.moved_read f policy _) s).bind fun environment => ?_
  refine (moved_field (Concurrency.moved_read f policy what) s).bind fun concurrency => ?_
  refine (moved_field (moved_readOutputs f _) s).bind fun outputs => ?_
  refine (moved_field (moved_readEnv f _) s).bind fun env => ?_
  refine (moved_field (Defaults.moved_read f policy what) s).bind fun defaults => ?_
  refine (moved_field (moved_readText f _) s).bind fun condition => ?_
  refine (moved_field (Step.moved_readList f policy what) s).bind fun steps => ?_
  refine (moved_field (moved_readMinutes f _) s).bind fun timeout => ?_
  refine (moved_field (Strategy.moved_read f policy _) s).bind fun strategy => ?_
  refine (moved_field (moved_readFlag f _) s).bind fun continueOnError => ?_
  refine (moved_field (Container.moved_read f policy _) s).bind fun container => ?_
  refine (moved_field (moved_readServices f policy _) s).bind fun services => ?_
  -- what stands for an absent key holds no place
  refine .pure ⟨rfl, rfl, fun runsOn steps => ?_⟩
  cases needs <;> cases outputs <;> cases env <;> cases services <;> rfl

theorem moved_read (f : Relocation) (policy : Policy) (id : Text) (n : Node) :
    (Job.read policy id n).Moved f (Job.read policy (relocate f id) (n.relocate f)) := by
  refine moved_withinOwner fun s => ?_
  refine Relocated.bind (relocated_fill (relocated_readFields f policy _ id s) s) ?_
  rintro ⟨runsOn, steps, complete⟩ ⟨_, _, complete'⟩ ⟨rfl, rfl, hcomplete⟩
  refine (moved_require runsOn id.pos s).bind fun runsOn => ?_
  refine (moved_require steps id.pos s).bind fun steps => ?_
  refine .pure ?_
  rcases runsOn with - | runsOn
  · rfl
  · rcases steps with - | steps
    · rfl
    · exact congrArg some (hcomplete runsOn steps)

theorem moved_readAll (f : Relocation) (policy : Policy) (n : Node) :
    (readAll policy n).Moved f (readAll policy (n.relocate f)) :=
  moved_free fun e => moved_read f policy e.key e.value

end Job

/-! ### Workflows -/

namespace Workflow

/-- The workflow that the other keys make of the required ones moves with these. -/
theorem relocated_readFields (f : Relocation) (policy : Policy) (what : String) (s : Section) :
    (readFields policy what s).Relocated f
      (fun x y => y.1 = relocate f x.1 ∧ y.2.1 = relocate f x.2.1 ∧
        ∀ triggers jobs, y.2.2 (relocate f triggers) (relocate f jobs) =
          relocate f (x.2.2 triggers jobs))
      (readFields policy what (relocate f s)) := by
  refine (moved_field (moved_readText f _) s).bind fun name => ?_
  refine (moved_field (moved_readText f _) s).bind fun runName => ?_
  refine (moved_field (Trigger.moved_readList f policy) s).bind fun triggers => ?_
  refine (moved_field (Permissions.moved_read f what) s).bind fun permissions => ?_
  refine (moved_field (moved_readEnv f _) s).bind fun env => ?_
  refine (moved_field (Defaults.moved_read f policy what) s).bind fun defaults => ?_
  refine (moved_field (Concurrency.moved_read f policy what) s).bind fun concurrency => ?_
  refine (moved_field (Job.moved_readAll f policy) s).bind fun jobs => ?_
  refine .pure ⟨rfl, rfl, fun triggers jobs => ?_⟩
  cases env <;> rfl

theorem moved_read (f : Relocation) (policy : Policy) (root : Node) :
    (Workflow.read policy root).Moved f (Workflow.read policy (root.relocate f)) := by
  unfold Workflow.read
  rw [Node.pos_relocate]
  refine moved_withinOwner fun s => ?_
  refine Relocated.bind (relocated_fill (relocated_readFields f policy _ s) s) ?_
  rintro ⟨triggers, jobs, complete⟩ ⟨_, _, complete'⟩ ⟨rfl, rfl, hcomplete⟩
  refine (moved_require triggers root.pos s).bind fun triggers => ?_
  refine (moved_require jobs root.pos s).bind fun jobs => ?_
  refine .pure ?_
  rcases triggers with - | triggers
  · rfl
  · rcases jobs with - | jobs
    · rfl
    · exact congrArg some (hcomplete triggers jobs)

/-- **Only the order of places matters**: giving all places of a file other ones in the same order
gives all places of the outcome these other ones.  The workflow is the same apart from them, and so
are the problems, whatever their budget is: the same ones are kept, and they are reported in the same
order. -/
theorem parse_relocate (policy : Policy) (root : Node) (f : Relocation) :
    parse policy (root.relocate f) = relocate f (parse policy root) := by
  have hmoved := moved_read f policy root
  have hread : read policy (root.relocate f) =
      ⟨relocate f (read policy root).value, relocate f (read policy root).problems⟩ :=
    Checked.ext hmoved.value hmoved.problems
  have hproblems : ∀ ps : List Problem, Problem.sort (policy.keep (relocate f ps)) =
      relocate f (Problem.sort (policy.keep ps)) := by
    intro ps
    rw [policy.keep_relocate, Problem.sort_relocate]
  unfold parse
  rw [hread]
  rcases read policy root with ⟨_ | w, _ | ⟨p, ps⟩⟩
  · exact congrArg Except.error (hproblems [])
  · exact congrArg Except.error (hproblems (p :: ps))
  · rfl
  · exact congrArg Except.error (hproblems (p :: ps))

/-- A file that a push starts and that has no jobs yet. -/
def jobless : Node :=
  .mapping [(.scalar "on" true ⟨1, 1⟩, .scalar "push" true ⟨1, 5⟩)] ⟨1, 1⟩

/-- Behind a header of three lines the jobs are missed three lines further down. -/
theorem parse_jobless_down : parse {} (jobless.relocate (.down 3)) =
    .error [⟨.missing "workflow" "jobs", ⟨4, 1⟩⟩] := by
  have hparse : parse {} jobless = .error [⟨.missing "workflow" "jobs", ⟨1, 1⟩⟩] :=
    congrArg Except.error (List.mergeSort_singleton _)
  rw [parse_relocate, hparse]
  rfl

end Workflow

end WorkflowTree
