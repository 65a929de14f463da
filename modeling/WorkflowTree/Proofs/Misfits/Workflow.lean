import WorkflowTree.Proofs.Acceptance.Workflow
import WorkflowTree.Proofs.Leniency.Workflow
import WorkflowTree.Proofs.Misfits.Readers

/-!
# Misfits of a file

Steps, jobs and the whole file.  What is missing in a file is reported once for each site that misses
it (`Workflow.missing_reported`), and each report of keys that exclude each other is about the keys
of one site (`Workflow.excluded_of_reported`).
-/

namespace WorkflowTree

open Checked Problem Section

variable {α : Type} {n : Node} {policy : Policy} {what owner : String} {s : Section} {pos : Position}

/-! ### Steps -/

theorem ActionUse.finds_readInputs (owner : String) (n : Node) :
    (readInputs owner n).Finds [] :=
  finds_free fun e => Assignment.finds_read _ e

namespace Step

/-- The keys of what says what a step does are those that the mapping of the step has. -/
structure ExecFields.KeysOf (n : Node) (f : ExecFields) : Prop where
  run : f.run.map Prod.fst = n.textKeyAt? "run"
  uses : f.uses.map Prod.fst = n.textKeyAt? "uses"
  inputs : f.inputs.map Prod.fst = n.keyAt? "with"
  shell : f.shell.map Prod.fst = n.textKeyAt? "shell"
  workingDirectory : f.workingDirectory.map Prod.fst = n.textKeyAt? "working-directory"

theorem value_readText (what : String) (n : Node) : (readText what n).value = n.leaf? := by
  unfold readText
  rcases n.leaf? with - | t <;> rfl

/-- Reading a text together with its key finds what the mapping has. -/
theorem value_fieldWithKey_readText (hs : s.HoldsFirsts n) (key what : String) :
    (s.fieldWithKey key (readText what)).value = n.textAt? key := by
  rw [value_fieldWithKey, hs.find? key, Node.textAt?]
  simp only [value_readText]

theorem key_fieldWithKey_readText (hs : s.HoldsFirsts n) (key what : String) :
    (s.fieldWithKey key (readText what)).value.map Prod.fst = n.textKeyAt? key := by
  rw [value_fieldWithKey_readText hs, Node.textKeyAt?_eq_map]

theorem keysOf_readFields (hs : s.HoldsFirsts n) (what : String) (pos : Position) :
    (readFields what s pos).value.1.KeysOf n where
  run := key_fieldWithKey_readText hs "run" _
  uses := key_fieldWithKey_readText hs "uses" _
  inputs := by
    have hwith : (s.fieldWithKey "with" fun n => pure (some n)).value.map Prod.fst =
        n.keyAt? "with" := by
      rw [value_fieldWithKey, hs.find? "with", Node.keyAt?]
      rcases n.entryAt? "with" with - | e <;> rfl
    exact hwith
  shell := key_fieldWithKey_readText hs "shell" _
  workingDirectory := key_fieldWithKey_readText hs "working-directory" _

/-- A step with a text under one of the keys that say what it does misses nothing. -/
theorem misfits_of_key (what : String) {k : Text}
    (h : n.textKeyAt? "run" = some k ∨ n.textKeyAt? "uses" = some k) :
    Site.misfits (.step what n) = Site.stepExclusions what n := by
  have hkey : (n.hasKey "run" || n.hasKey "uses") = true := by
    rcases h with h | h
    · rw [Node.hasKey_of_keyAt? (Node.keyAt?_of_textKeyAt? h), Bool.true_or]
    · rw [Node.hasKey_of_keyAt? (Node.keyAt?_of_textKeyAt? h), Bool.or_true]
  rw [Site.misfits, Site.missing, if_pos hkey, List.append_nil, Site.exclusions]

theorem isMisfit_exclusive (what : String) (first second : Text) :
    (exclusive what first second).isMisfit = true := rfl

theorem finds_exclusive (what : String) (first : Text) (ks : List (Text × α)) :
    (reportAll (ks.map fun k => exclusive what first k.1)).Finds
      ((ks.map Prod.fst).map (exclusive what first)) := by
  rw [List.map_map]
  refine finds_reportAll fun p hp => ?_
  obtain ⟨k, -, rfl⟩ := List.mem_map.mp hp
  exact isMisfit_exclusive what first k.1

/-- What says what a step does is read with the misfits of the step. -/
theorem finds_readExec (hs : s.HoldsFirsts n) {f : ExecFields} (hf : f.KeysOf n) (what : String) :
    (readExec what s n.pos f).Finds (Site.misfits (.step what n)) := by
  obtain ⟨run, uses, inputs, shell, dir⟩ := f
  obtain ⟨hrun, huses, hinputs, hshell, hdir⟩ := hf
  dsimp only at hrun huses hinputs hshell hdir
  rcases run with - | ⟨runKey, script⟩ <;> rcases uses with - | ⟨usesKey, action⟩
  · -- neither key has a text: the step lacks both keys, or one has another value
    rw [Option.map_none] at hrun huses
    simp only [Site.misfits, Site.exclusions, Site.stepExclusions, ← hrun, ← huses, Site.missing,
      List.nil_append, readExec, hs.has]
    cases n.hasKey "run" || n.hasKey "uses"
    · exact .refl _
    · exact .refl _
  · rw [Option.map_none] at hrun
    rw [Option.map_some] at huses
    have hkeys : (shell.toList ++ dir.toList).map Prod.fst =
        (n.textKeyAt? "shell").toList ++ (n.textKeyAt? "working-directory").toList := by
      rw [← hshell, ← hdir, List.map_append, Option.toList_map, Option.toList_map]
    rw [misfits_of_key what (.inr huses.symm), Site.stepExclusions, ← hrun, ← huses]
    dsimp only
    rw [← hkeys]
    refine (finds_exclusive what usesKey (shell.toList ++ dir.toList)).last ?_
    rcases inputs with - | ⟨inputsKey, v⟩
    · exact finds_pure _
    · exact (ActionUse.finds_readInputs what v).last (finds_pure _)
  · rw [Option.map_some] at hrun
    rw [Option.map_none] at huses
    rw [misfits_of_key what (.inl hrun.symm), Site.stepExclusions, ← hrun, ← huses]
    dsimp only
    rw [← hinputs, Option.toList_map]
    exact (finds_exclusive what runKey inputs.toList).last (finds_pure _)
  · rw [Option.map_some] at hrun huses
    rw [misfits_of_key what (.inl hrun.symm), Site.stepExclusions, ← hrun, ← huses]
    refine (finds_reportAll fun p hp => ?_).last (finds_pure _)
    obtain rfl := List.mem_singleton.mp hp
    split
    · exact isMisfit_exclusive what runKey usesKey
    · exact isMisfit_exclusive what usesKey runKey

theorem findsIn_readFields (s : Section) (what : String) (pos : Position) :
    (readFields what s pos).FindsIn s [] := by
  refine (findsIn_field (finds_readText _)).last ?_
  refine (findsIn_field (finds_readText _)).last ?_
  refine (findsIn_field (finds_readText _)).last ?_
  refine (findsIn_fieldWithKey (finds_readText _)).last ?_
  refine (findsIn_fieldWithKey (finds_readText _)).last ?_
  refine (findsIn_fieldWithKey fun _ => finds_pure _).last ?_
  refine (findsIn_fieldWithKey (finds_readText _)).last ?_
  refine (findsIn_fieldWithKey (finds_readText _)).last ?_
  refine (findsIn_field (finds_readEnv _)).last ?_
  refine (findsIn_field (finds_readFlag _)).last ?_
  exact (findsIn_field (finds_readMinutes _)).last (Form.findsIn_pure _)

theorem findsAt_read (policy : Policy) (what : String) (n : Node) :
    (Step.read policy what n).FindsAt (Step.sites what n) := by
  refine findsAt_within fun s hs => ?_
  unfold FindsAt
  rw [List.flatMap_singleton]
  refine (finds_fill (nodup_readFields what s n.pos) (findsIn_readFields s what n.pos)).bind ?_
  exact (finds_readExec hs (keysOf_readFields hs what n.pos) what).last (finds_pure _)

theorem findsAt_readList (policy : Policy) (owner : String) (n : Node) :
    (readList policy owner n).FindsAt (listSites owner n) := by
  unfold readList listSites
  rcases n.items? with - | items
  · exact finds_mismatch _ _ _
  · exact Finds.map (findsAt_collect fun (item, i) _ => findsAt_read policy _ item)

end Step

/-! ### Jobs -/

theorem Runner.finds_read (what : String) (n : Node) : (Runner.read what n).Finds [] := by
  have hlabels : (readLabels what n).Finds [] := by
    unfold readLabels
    split
    · exact finds_pure _
    · exact finds_readTexts what _
    · exact finds_mismatch _ _ _
  refine hlabels.andThen (fun _ => rfl) fun labels _ => ?_
  split
  · exact finds_pure _
  · exact finds_mismatch _ _ _

namespace Job

theorem finds_readOutputs (what : String) (n : Node) : (readOutputs what n).Finds [] :=
  finds_free fun e => Assignment.finds_read _ e

theorem findsIn_readFields (hs : s.HoldsFirsts n) (policy : Policy) (what : String) (id : Text) :
    (readFields policy what id s).FindsIn s ((innerSites what n).flatMap Site.misfits) := by
  unfold innerSites
  simp only [List.flatMap_append]
  refine (findsIn_field (finds_readText _)).bind ?_
  refine (findsIn_field (finds_readTextOrTexts _)).bind ?_
  refine (findsIn_field (Runner.finds_read _)).bind ?_
  refine (findsIn_field (Permissions.finds_read what)).bind ?_
  refine (findsIn_fieldAt hs (Environment.findsAt_read policy _)).bind ?_
  refine (findsIn_fieldAt hs (Concurrency.findsAt_read policy what)).bind ?_
  refine (findsIn_field (finds_readOutputs _)).bind ?_
  refine (findsIn_field (finds_readEnv _)).bind ?_
  refine (findsIn_field (Defaults.finds_read policy what)).bind ?_
  refine (findsIn_field (finds_readText _)).bind ?_
  refine (findsIn_fieldAt hs (Step.findsAt_readList policy what)).bind ?_
  refine (findsIn_field (finds_readMinutes _)).bind ?_
  refine (findsIn_field (Strategy.finds_read policy _)).bind ?_
  refine (findsIn_field (finds_readFlag _)).bind ?_
  refine (findsIn_fieldAt hs (Container.findsAt_read policy _)).bind ?_
  exact (findsIn_fieldAt hs (findsAt_readServices policy _)).last (Form.findsIn_pure _)

theorem findsAt_read (policy : Policy) (id : Text) (n : Node) :
    (Job.read policy id n).FindsAt (Job.sites id n) := by
  refine findsAt_withinOwner rfl fun s hs => ?_
  refine (finds_fill (nodup_readFields ..) (findsIn_readFields hs policy _ id)).bind ?_
  rw [Site.missing, Site.lacking_pair]
  refine (finds_require hs value_field_of_none).bind ?_
  exact (finds_require hs value_field_of_none).last (finds_pure _)

theorem findsAt_readAll (policy : Policy) (n : Node) :
    (readAll policy n).FindsAt (allSites n) :=
  findsAt_free fun e => findsAt_read policy e.key e.value

end Job

/-! ### Workflows -/

namespace Workflow

theorem findsIn_readFields (hs : s.HoldsFirsts n) (policy : Policy) :
    (readFields policy "workflow" s).FindsIn s ((innerSites n).flatMap Site.misfits) := by
  unfold innerSites
  simp only [List.flatMap_append]
  refine (findsIn_field (finds_readText _)).bind ?_
  refine (findsIn_field (finds_readText _)).bind ?_
  refine (findsIn_fieldAt hs (Trigger.findsAt_readList policy)).bind ?_
  refine (findsIn_field (Permissions.finds_read _)).bind ?_
  refine (findsIn_field (finds_readEnv _)).bind ?_
  refine (findsIn_field (Defaults.finds_read policy _)).bind ?_
  refine (findsIn_fieldAt hs (Concurrency.findsAt_read policy _)).bind ?_
  exact (findsIn_fieldAt hs (Job.findsAt_readAll policy)).last (Form.findsIn_pure _)

/-- Reading a file finds the misfits of its sites. -/
theorem findsAt_read (policy : Policy) (root : Node) :
    (Workflow.read policy root).FindsAt (sites root) := by
  refine findsAt_withinOwner rfl fun s hs => ?_
  refine (finds_fill (nodup_readFields ..) (findsIn_readFields hs policy)).bind ?_
  rw [Site.missing, Site.lacking_pair]
  refine (finds_require hs value_field_of_none).bind ?_
  exact (finds_require hs value_field_of_none).last (finds_pure _)

/-- **What is missing is reported, and nothing else**: where all problems are kept, the reports of
missing keys are those of the keys that the sites of the file lack, each of them once. -/
theorem missing_reported (policy : Policy) (root : Node) (hbudget : policy.budget = none) :
    ((reported policy root).filter isMissing).Perm ((sites root).flatMap Site.missing) := by
  have hfound : (misfits (read policy root).problems).Perm ((sites root).flatMap Site.misfits) :=
    findsAt_read policy root
  have hmissing := hfound.filter isMissing
  rw [List.filter_flatMap, filter_isMissing_misfits] at hmissing
  simp only [Site.filter_isMissing_misfits] at hmissing
  exact ((reported_perm hbudget root).filter isMissing).trans hmissing

/-- A job without any keys, in a file without triggers. -/
def bareJob : Node := .mapping [(.scalar "jobs" true ⟨1, 1⟩, .mapping [
  (.scalar "build" true ⟨2, 3⟩, .mapping [(.scalar "container" true ⟨3, 5⟩, .mapping [] ⟨3, 16⟩)]
    ⟨3, 5⟩)] ⟨2, 3⟩)] ⟨1, 1⟩

/-- Each of the keys that the workflow, the job and its container lack is missed. -/
theorem missing_bareJob : ((reported {} bareJob).filter isMissing).Perm
    [⟨.missing "workflow" "on", ⟨1, 1⟩⟩, ⟨.missing "job \"build\"" "runs-on", ⟨2, 3⟩⟩,
      ⟨.missing "job \"build\"" "steps", ⟨2, 3⟩⟩,
      ⟨.missing "\"container\" in job \"build\"" "image", ⟨3, 16⟩⟩] :=
  missing_reported {} bareJob rfl

/-- **Keys that exclude each other**: whatever the policy, each report of keys that exclude each
other is about the keys of the mapping of one site.  It stands at the later one of two forms of
permissions and of two keys that say what a step does.  Beside a script it stands at the inputs, and
beside an action at the settings of a script, whichever key was written first. -/
theorem excluded_of_reported (policy : Policy) (root : Node) (p : Problem)
    (hp : p ∈ reported policy root) (hexclusion : p.isExclusion = true) :
    ∃ site ∈ sites root, ∃ n, site.node? = some n ∧ n.Excludes p := by
  have hfound : (misfits (read policy root).problems).Perm ((sites root).flatMap Site.misfits) :=
    findsAt_read policy root
  have hmem : p ∈ misfits (read policy root).problems := by
    rw [reported_eq_sort, Problem.mem_sort] at hp
    refine List.mem_filter.mpr ⟨(policy.keep_prefix _).subset hp, ?_⟩
    rw [isMisfit, hexclusion, Bool.true_or]
  obtain ⟨site, hsite, hmisfit⟩ := List.mem_flatMap.mp (hfound.mem_iff.mp hmem)
  refine ⟨site, hsite, Site.excludes_of_mem_exclusions ?_⟩
  rcases List.mem_append.mp hmisfit with hexclusions | hmissing
  · exact hexclusions
  · -- a missing key is another kind of problem
    have hkind := Site.isMissing_of_mem_missing hmissing
    rw [isExclusion, beq_iff_eq] at hexclusion
    rw [isMissing, hexclusion] at hkind
    cases hkind

/-- A step with its inputs written before the script that they do not go with. -/
def inputsFirst : Node := .mapping [
  (.scalar "on" true ⟨1, 1⟩, .scalar "push" true ⟨1, 5⟩),
  (.scalar "jobs" true ⟨2, 1⟩, .mapping [
    (.scalar "test" true ⟨3, 3⟩, .mapping [
      (.scalar "runs-on" true ⟨4, 5⟩, .scalar "ubuntu-latest" true ⟨4, 14⟩),
      (.scalar "steps" true ⟨5, 5⟩, .sequence [.mapping [
        (.scalar "with" true ⟨6, 9⟩, .mapping [
          (.scalar "a" true ⟨7, 11⟩, .scalar "b" true ⟨7, 14⟩)] ⟨7, 11⟩),
        (.scalar "run" true ⟨8, 9⟩, .scalar "echo" true ⟨8, 14⟩)] ⟨6, 9⟩] ⟨6, 7⟩)]
      ⟨4, 5⟩)] ⟨3, 3⟩)] ⟨1, 1⟩

/-- The report stands at the inputs, and the script comes first in it, though the script comes last
in the file. -/
theorem reported_inputsFirst : reported {} inputsFirst =
    [Step.exclusive "step 1 of job \"test\"" ⟨"run", ⟨8, 9⟩⟩ ⟨"with", ⟨6, 9⟩⟩] := by
  have hproblems : (read {} inputsFirst).problems =
      [Step.exclusive "step 1 of job \"test\"" ⟨"run", ⟨8, 9⟩⟩ ⟨"with", ⟨6, 9⟩⟩] := by
    rfl
  rw [reported_eq_sort, hproblems]
  exact List.mergeSort_singleton _

/-- The keys that this report is about are those of the step. -/
theorem excluded_inputsFirst : ∃ site ∈ sites inputsFirst, ∃ n, site.node? = some n ∧
    n.Excludes (Step.exclusive "step 1 of job \"test\"" ⟨"run", ⟨8, 9⟩⟩ ⟨"with", ⟨6, 9⟩⟩) :=
  excluded_of_reported {} inputsFirst _ (by simp [reported_inputsFirst]) rfl

end Workflow

end WorkflowTree
