import WorkflowTree.Proofs.Leniency.Workflow
import WorkflowTree.Proofs.Reordering.Readers

/-!
# The order of entries does not matter

Steps, jobs and the whole workflow.  Where no key is repeated and all problems are kept, a file and
a reordered one are both accepted or both rejected (`Workflow.parse_reordered`): they give the same
workflow, once its collections are taken as finite maps, or the same problems in some order.
-/

namespace WorkflowTree

open Checked Node Section

variable {α : Type} {n n' : Node} {policy : Policy} {what owner : String}
variable {s s' : Section} {pos : Position} {id : Text}

/-! ### Steps -/

namespace ActionUse

theorem same_ofAssignments (action : Text) {inputs inputs' : Assignments}
    (h : inputs.Same inputs') :
    (ofAssignments action inputs).Same (ofAssignments action inputs') := by
  refine ⟨same_filterMap (sameBy_eq h) fun key a a' ha => by rw [ha], ?_⟩
  unfold ofAssignments
  rw [h entrypointKey, h argsKey]

theorem alike_readInputs (h : n.Alike n') :
    (readInputs owner n).Alike (Option.Rel Keyed.Same) (readInputs owner n') :=
  alike_readAssignments h fun e e' hkey => by rw [hkey]

end ActionUse

namespace Step

/-- What says what a step does is the same, but for the order of what is passed to an action. -/
structure ExecFields.Alike (f f' : ExecFields) : Prop where
  run : f.run = f'.run
  uses : f.uses = f'.uses
  inputs : Option.Rel (fun x y => x.1 = y.1 ∧ x.2.Alike y.2) f.inputs f'.inputs
  shell : f.shell = f'.shell
  workingDirectory : f.workingDirectory = f'.workingDirectory

theorem alike_readExec {value : Option String → Node → Node → Prop} {f f' : ExecFields}
    (hs : s.Alike value s') (h : f.Alike f') :
    (readExec owner s pos f).Alike (Option.Rel Exec.Same) (readExec owner s' pos f') := by
  rcases f with ⟨run, uses, inputs, shell, dir⟩
  rcases f' with ⟨run', uses', inputs', shell', dir'⟩
  obtain ⟨hrun, huses, hinputs, hshell, hdir⟩ := h
  cases hrun
  cases huses
  cases hshell
  cases hdir
  rcases run with - | ⟨runKey, script⟩ <;> rcases uses with - | ⟨usesKey, action⟩
  · -- without a value for either key, the keys decide whether one is missed
    simp only [readExec, hs.has]
    split <;> exact ⟨.none, .refl _⟩
  · refine .bind (alike_reportAll (.refl _)) fun _ _ _ => ?_
    cases hinputs with
    | none => exact .pure (.some (.action (ActionUse.same_ofAssignments action (.refl _))))
    | @some x y hxy =>
      refine .bind (ActionUse.alike_readInputs hxy.2) fun inputs inputs' hinputs => ?_
      exact .pure (.some (.action (ActionUse.same_ofAssignments action (same_getD hinputs))))
  · have hkeys : inputs.toList.map (fun i => exclusive owner runKey i.1) =
        inputs'.toList.map fun i => exclusive owner runKey i.1 := by
      cases hinputs with
      | none => rfl
      | @some x y hxy => simp [hxy.1]
    refine .bind (alike_reportAll (hkeys ▸ .refl _)) fun _ _ _ => ?_
    exact .pure (.some (.run _))
  · -- of two keys that exclude each other the places decide which one is reported
    exact ⟨.none, .refl _⟩

/-- Permuting the keys of a step gives the same step, if it does the same. -/
theorem alike_readFields (hs : s.Alike (fun _ => Node.Alike) s') :
    (readFields what s pos).Alike
      (fun x y => x.1.Alike y.1 ∧ ∀ exec exec', exec.Same exec' → (x.2 exec).Same (y.2 exec'))
      (readFields what s' pos) := by
  refine .bindEq (alike_field_eq hs fun _ _ => readText_eq) fun id => ?_
  refine .bindEq (alike_field_eq hs fun _ _ => readText_eq) fun condition => ?_
  refine .bindEq (alike_field_eq hs fun _ _ => readText_eq) fun name => ?_
  refine .bindEq (alike_fieldWithKey_eq hs fun _ _ => readText_eq) fun run => ?_
  refine .bindEq (alike_fieldWithKey_eq hs fun _ _ => readText_eq) fun uses => ?_
  refine .bind (alike_fieldWithKey hs fun v v' hv => .pure (.some hv)) fun _ _ hinputs => ?_
  refine .bindEq (alike_fieldWithKey_eq hs fun _ _ => readText_eq) fun shell => ?_
  refine .bindEq (alike_fieldWithKey_eq hs fun _ _ => readText_eq) fun dir => ?_
  refine .bind (alike_field .none hs fun _ _ => alike_readEnv) fun env env' henv => ?_
  refine .bindEq (alike_field_eq hs fun _ _ => readFlag_eq) fun continues => ?_
  refine .bindEq (alike_field_eq hs fun _ _ => readMinutes_eq) fun timeout => ?_
  refine .pure ⟨⟨rfl, rfl, hinputs, rfl, rfl⟩, fun exec exec' hexec => ?_⟩
  exact ⟨hexec, same_getD henv, rfl⟩

theorem alike_read (h : n.Alike n') :
    (Step.read policy what n).Alike (Option.Rel Step.Same) (Step.read policy what n') := by
  unfold Step.read
  rw [h.sameOutside.pos]
  refine alike_within .none h fun s s' hs => ?_
  refine .bind (alike_fill hs (alike_readFields hs)) ?_
  rintro ⟨fields, complete⟩ ⟨fields', complete'⟩ ⟨hfields, hcomplete⟩
  exact (alike_readExec hs hfields).optionMap hcomplete

theorem alike_readList (h : n.Alike n') :
    (readList policy owner n).Alike (Option.Rel (List.Forall₂ Step.Same))
      (readList policy owner n') := by
  unfold readList
  obtain ⟨hn, hn'⟩ | ⟨items, items', hn, hn', hitems⟩ := optionRel_cases h.items
  · simp only [hn, hn']
    exact alike_mismatch .none h.sameOutside _ _
  · simp only [hn, hn']
    refine Alike.some (Checked.alike_collect (forall₂_zipIdx hitems 0) ?_)
    rintro ⟨item, i⟩ ⟨item', _⟩ ⟨hitem, rfl⟩
    exact alike_read hitem

end Step

/-! ### Jobs -/

theorem Runner.read_eq (h : n.Alike n') : Runner.read what n = Runner.read what n' := by
  have hlabels : Runner.readLabels what n = Runner.readLabels what n' := textOrTexts_eq _ h
  unfold Runner.read
  simp only [hlabels, h.sameOutside.pos, mismatch_eq h.sameOutside]

namespace Job

theorem alike_readOutputs (h : n.Alike n') :
    (readOutputs what n).Alike (Option.Rel Keyed.Same) (readOutputs what n') :=
  alike_readAssignments h fun e e' hkey => by rw [hkey]

/-- Permuting the keys of a job gives the same job, if its steps are the same. -/
theorem alike_readFields (hs : s.Alike (fun _ => Node.Alike) s') :
    (readFields policy what id s).Alike
      (fun x y => x.1 = y.1 ∧ Option.Rel (List.Forall₂ Step.Same) x.2.1 y.2.1 ∧
        ∀ runsOn steps steps', List.Forall₂ Step.Same steps steps' →
          (x.2.2 runsOn steps).Same (y.2.2 runsOn steps'))
      (readFields policy what id s') := by
  refine .bindEq (alike_field_eq hs fun _ _ => readText_eq) fun name => ?_
  refine .bindEq (alike_field_eq hs fun _ _ => readTextOrTexts_eq) fun needs => ?_
  refine .bindEq (alike_field_eq hs fun _ _ => Runner.read_eq) fun runsOn => ?_
  refine .bind (alike_field .none hs fun _ _ => Permissions.alike_read) fun p p' hp => ?_
  refine .bindEq (alike_field rfl hs fun _ _ => Environment.alike_read) fun environment => ?_
  refine .bindEq (alike_field rfl hs fun _ _ => Concurrency.alike_read) fun concurrency => ?_
  refine .bind (alike_field .none hs fun _ _ => alike_readOutputs) fun outputs outputs' ho => ?_
  refine .bind (alike_field .none hs fun _ _ => alike_readEnv) fun env env' henv => ?_
  refine .bindEq (alike_field rfl hs fun _ _ => Defaults.alike_read) fun defaults => ?_
  refine .bindEq (alike_field_eq hs fun _ _ => readText_eq) fun condition => ?_
  refine .bind (alike_field .none hs fun _ _ => Step.alike_readList) fun steps steps' hsteps => ?_
  refine .bindEq (alike_field_eq hs fun _ _ => readMinutes_eq) fun timeout => ?_
  refine .bind (alike_field .none hs fun _ _ => Strategy.alike_read) fun st st' hst => ?_
  refine .bindEq (alike_field_eq hs fun _ _ => readFlag_eq) fun continues => ?_
  refine .bind (alike_field .none hs fun _ _ => Container.alike_read) fun c c' hc => ?_
  refine .bind (alike_field .none hs fun _ _ => alike_readServices) fun services services' hss => ?_
  refine .pure ⟨rfl, hsteps, fun runsOn steps steps' hsteps => ?_⟩
  exact ⟨hp, same_getD ho, same_getD henv, hsteps, hst, hc, sameBy_getD hss, rfl⟩

theorem alike_read (h : n.Alike n') :
    (Job.read policy id n).Alike (Option.Rel Job.Same) (Job.read policy id n') := by
  obtain ⟨hn, hparts, hshuffled⟩ := h
  refine alike_withinOwner .none hn hparts hshuffled fun s s' hs => ?_
  refine .bind (alike_fill hs (alike_readFields hs)) ?_
  rintro ⟨runsOn, steps, complete⟩ ⟨_, steps', complete'⟩ ⟨rfl, hsteps, hcomplete⟩
  refine .bind (alike_require (Q := Eq) hs rfl rfl) ?_
  rintro runsOn _ rfl
  refine .bind (alike_require hs hsteps (by cases hsteps <;> rfl)) fun steps steps' hsteps => ?_
  refine .pure ?_
  rcases runsOn with - | runsOn
  · exact .none
  · cases hsteps with
    | none => exact .none
    | some hsteps => exact .some (hcomplete runsOn _ _ hsteps)

theorem alike_readAll (h : n.Alike n') :
    (readAll policy n).Alike (Option.Rel (Keyed.SameBy Job.Same)) (readAll policy n') := by
  refine alike_free h fun e e' hkey hvalue => ?_
  rw [hkey]
  exact alike_read hvalue

end Job

/-! ### Workflows -/

namespace Workflow

/-- What stands under another key than that of the triggers is permuted. -/
theorem alike_of_permutedUnder {key : String} {v v' : Node} (hkey : key ≠ "on")
    (h : v.Distinct ∧ PermutedUnder (some key) v v') : v.Alike v' := by
  obtain ⟨hv, hvalue⟩ := h
  rw [PermutedUnder, if_neg (by simpa using hkey)] at hvalue
  exact ⟨hv, hvalue⟩

/-- Reordering the keys of a workflow gives the same workflow, if its triggers and its jobs are the
same. -/
theorem alike_readFields
    (hs : s.Alike (fun key v v' => v.Distinct ∧ PermutedUnder key v v') s') :
    (readFields policy what s).Alike
      (fun x y => Option.Rel (List.Forall₂ Trigger.Same) x.1 y.1 ∧
        Option.Rel (Keyed.SameBy Job.Same) x.2.1 y.2.1 ∧
        ∀ triggers triggers' jobs jobs', List.Forall₂ Trigger.Same triggers triggers' →
          jobs.SameBy Job.Same jobs' → (x.2.2 triggers jobs).Same (y.2.2 triggers' jobs'))
      (readFields policy what s') := by
  -- only the triggers are read of a value whose own entries stay in place
  have hvalue : ∀ {key : String}, key ≠ "on" → ∀ v v',
      v.Distinct ∧ PermutedUnder (some key) v v' → v.Alike v' :=
    fun hkey _ _ => alike_of_permutedUnder hkey
  refine .bindEq (alike_field_eq hs fun v v' h => readText_eq (hvalue (by decide) v v' h))
    fun name => ?_
  refine .bindEq (alike_field_eq hs fun v v' h => readText_eq (hvalue (by decide) v v' h))
    fun runName => ?_
  refine .bind (alike_field .none hs fun v v' h => Trigger.alike_readList h.1 h.2)
    fun triggers triggers' htriggers => ?_
  refine .bind (alike_field .none hs fun v v' h =>
    Permissions.alike_read (hvalue (by decide) v v' h)) fun p p' hp => ?_
  refine .bind (alike_field .none hs fun v v' h => alike_readEnv (hvalue (by decide) v v' h))
    fun env env' henv => ?_
  refine .bindEq (alike_field rfl hs fun v v' h =>
    Defaults.alike_read (hvalue (by decide) v v' h)) fun defaults => ?_
  refine .bindEq (alike_field rfl hs fun v v' h =>
    Concurrency.alike_read (hvalue (by decide) v v' h)) fun concurrency => ?_
  refine .bind (alike_field .none hs fun v v' h => Job.alike_readAll (hvalue (by decide) v v' h))
    fun jobs jobs' hjobs => ?_
  refine .pure ⟨htriggers, hjobs, fun triggers triggers' jobs jobs' htriggers hjobs => ?_⟩
  exact ⟨htriggers, hp, same_getD henv, hjobs, rfl⟩

theorem alike_read (hn : n.Distinct) (h : n.Reordered n') :
    (Workflow.read policy n).Alike (Option.Rel Workflow.Same) (Workflow.read policy n') := by
  obtain ⟨m, hparts, hshuffled⟩ := h
  -- the file itself is shuffled last, when what stands under its keys is permuted already
  have hpos : n.pos = n'.pos := (hparts.sameOutside.trans hshuffled.sameOutside).pos
  unfold Workflow.read
  rw [hpos]
  refine alike_withinOwner .none hn hparts hshuffled fun s s' hs => ?_
  refine .bind (alike_fill hs (alike_readFields hs)) ?_
  rintro ⟨triggers, jobs, complete⟩ ⟨triggers', jobs', complete'⟩ ⟨htriggers, hjobs, hcomplete⟩
  refine .bind (alike_require hs htriggers (by cases htriggers <;> rfl)) fun ts ts' hts => ?_
  refine .bind (alike_require hs hjobs (by cases hjobs <;> rfl)) fun js js' hjs => ?_
  refine .pure ?_
  cases hts with
  | none => exact .none
  | some hts =>
    cases hjs with
    | none => exact .none
    | some hjs => exact .some (hcomplete _ _ _ _ hts hjs)

/-- Two results of parsing that agree: both files are accepted and give the same workflow, or both
are rejected with the same problems, in some order. -/
inductive SameOutcome : Except (List Problem) Workflow → Except (List Problem) Workflow → Prop
  | accepted {w w' : Workflow} : w.Same w' → SameOutcome (.ok w) (.ok w')
  | rejected {ps ps' : List Problem} : ps.Perm ps' → SameOutcome (.error ps) (.error ps')

/-- **The order of entries does not matter**: where no key is repeated and all problems are kept,
permuting the entries of any mappings but that of the triggers gives the same outcome. -/
theorem parse_reordered (policy : Policy) (root root' : Node) (hbudget : policy.budget = none)
    (hroot : root.Distinct) (h : root.Reordered root') :
    SameOutcome (parse policy root) (parse policy root') := by
  have hread : (read policy root).Alike (Option.Rel Workflow.Same) (read policy root') :=
    alike_read hroot h
  have hkeep : ∀ ps : List Problem, policy.keep ps = ps := by
    intro ps
    unfold Policy.keep
    rw [hbudget]
  by_cases hclean : (read policy root).problems = []
  · -- without problems on one side there are none on the other, and both have a value
    have hclean' : (read policy root').problems = [] :=
      List.nil_perm.mp (hclean ▸ hread.problems)
    obtain ⟨w, hw⟩ := (explained_read policy root).exists_value hclean
    obtain ⟨w', hw'⟩ := (explained_read policy root').exists_value hclean'
    have hsame : w.Same w' := by
      have hvalue := hread.value
      rw [hw, hw'] at hvalue
      exact Option.rel_some_some.mp hvalue
    rw [parse_eq_ok_iff.mpr ⟨hclean, hw⟩, parse_eq_ok_iff.mpr ⟨hclean', hw'⟩]
    exact .accepted hsame
  · have hclean' : (read policy root').problems ≠ [] := by
      intro hnil
      exact hclean (List.perm_nil.mp (hnil ▸ hread.problems))
    rw [parse_of_problems_ne_nil hclean, parse_of_problems_ne_nil hclean', hkeep, hkeep]
    exact .rejected ((Problem.sort_perm _).trans (hread.problems.trans (Problem.sort_perm _).symm))

/-- The entries of a step, with the name first. -/
def named : List (Node × Node) :=
  [(.scalar "name" true ⟨6, 9⟩, .scalar "Build" true ⟨6, 15⟩),
    (.scalar "run" true ⟨7, 9⟩, .scalar "make" true ⟨7, 14⟩)]

/-- A workflow with one step that has these entries. -/
def withStep (step : List (Node × Node)) : List (Node × Node) :=
  [(.scalar "on" true ⟨1, 1⟩, .scalar "push" true ⟨1, 5⟩),
    (.scalar "jobs" true ⟨2, 1⟩, .mapping [
      (.scalar "build" true ⟨3, 3⟩, .mapping [
        (.scalar "runs-on" true ⟨4, 5⟩, .scalar "ubuntu-latest" true ⟨4, 14⟩),
        (.scalar "steps" true ⟨5, 5⟩, .sequence [.mapping step ⟨6, 9⟩] ⟨6, 7⟩)] ⟨4, 5⟩)] ⟨3, 3⟩)]

theorem distinct_withStep : (Node.mapping (withStep named) ⟨1, 1⟩).Distinct := by
  simp [withStep, named, Node.text?]

theorem reordered_withStep : (Node.mapping (withStep named) ⟨1, 1⟩).Reordered
    (.mapping (withStep named.reverse).reverse ⟨1, 1⟩) := by
  have hstep : (Node.mapping named ⟨6, 9⟩).Permuted (.mapping named.reverse ⟨6, 9⟩) :=
    .intro (.mapping _ (Permuted.refl_entries named)) (.mapping _ named.reverse_perm.symm)
  have hsteps : (Node.sequence [.mapping named ⟨6, 9⟩] ⟨6, 7⟩).Permuted
      (.sequence [.mapping named.reverse ⟨6, 9⟩] ⟨6, 7⟩) :=
    .intro (.sequence _ (.cons hstep .nil)) (.refl _)
  refine ⟨.mapping (withStep named.reverse) ⟨1, 1⟩, .mapping _ ?_,
    .mapping _ (List.reverse_perm _).symm⟩
  refine .cons (.intro (Permuted.refl _) ?_) (.cons (.intro (Permuted.refl _) ?_) .nil)
  · exact .scalar "push" true ⟨1, 5⟩
  · refine .intro (.mapping _ (.cons (.intro (Permuted.refl _) ?_) .nil)) (.refl _)
    refine .intro (.mapping _ (.cons (.intro (Permuted.refl _) (Permuted.refl _)) ?_)) (.refl _)
    exact .cons (.intro (Permuted.refl _) hsteps) .nil

/-- The keys of the workflow and of its step may come in the opposite order. -/
theorem parse_reversed : ∃ w, parse {} (.mapping (withStep named) ⟨1, 1⟩) = .ok w ∧
    SameOutcome (.ok w) (parse {} (.mapping (withStep named.reverse).reverse ⟨1, 1⟩)) :=
  ⟨_, rfl, parse_reordered {} _ _ rfl distinct_withStep reordered_withStep⟩

end Workflow

end WorkflowTree
