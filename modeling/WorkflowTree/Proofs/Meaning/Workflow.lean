import WorkflowTree.Proofs.Leniency.Workflow
import WorkflowTree.Proofs.Meaning.Readers

/-!
# What is read of workflows is what they mean

Steps, jobs and the whole workflow (`Workflow.means_of_parse`).  A required key is looked up by a
form and missed after it, so the form of a job or a workflow is sound for a value that is completed
later: whatever the required keys mean, the other ones complete it.
-/

namespace WorkflowTree

open Checked Section

variable {α : Type} {n : Node} {policy : Policy} {what owner key : String}
variable {s : Section} {pos : Position} {e : Entry} {id : Text}

/-! ### Steps -/

namespace ActionUse

theorem sound_readInputs : (readInputs owner n).Sound (Given (MeansAssignments n)) :=
  sound_readAssignments

theorem at?_with (n : Node) (k : String) :
    n.at? ["with", k] = (n.get? "with").bind (·.get? k) := by
  rcases h : n.get? "with" with - | v
  · simp [Node.at?, h]
  · simp [Node.at?, h]

/-- What is under one of the keys that are kept apart is its text. -/
theorem rel_apart {v : Node} {inputs : Assignments} (h : MeansAssignments v inputs) (k : String) :
    Option.Rel MeansText (v.get? k) ((inputs.find? k).map Assignment.value) := by
  rw [← v.map_value_entryAt? k]
  obtain ⟨hentry, hfind⟩ | ⟨entry, a, hentry, hfind, ha⟩ := optionRel_cases (h.rel k)
  · rw [hentry, hfind]
    exact .none
  · rw [hentry, hfind]
    exact .some ha.value

/-- The inputs are what stands under the other keys. -/
theorem meansKeyedBut_inputs {v : Node} {inputs : Assignments} (action : Text)
    (h : MeansAssignments v inputs) :
    MeansKeyedBut ["entrypoint", "args"] MeansAssignment v
      (ofAssignments action inputs).inputs := by
  refine ⟨h.isSection, fun k => ?_⟩
  show Option.Rel _ _ ((inputs.filterMap _).find? k)
  rw [Keyed.find?_filterMap]
  by_cases hk : k ∈ ["entrypoint", "args"]
  · have hnone : ([entrypointKey, argsKey].contains k) = true := List.contains_iff_mem.mpr hk
    simp only [hnone, if_true, Option.bind_fun_none, if_pos hk]
    exact .none
  · have hsome : ([entrypointKey, argsKey].contains k) = false := by
      simpa [entrypointKey, argsKey] using hk
    simp only [hsome, Bool.false_eq_true, if_false, Option.bind_fun_some, if_neg hk]
    exact h.rel k

/-- An action means what is passed to it. -/
theorem means_ofAssignments {v : Node} {action : Text} {inputs : Assignments}
    (haction : n.Requires "uses" (MeansText · action)) (hwith : n.get? "with" = some v)
    (hinputs : MeansAssignments v inputs) : MeansActionUse n (ofAssignments action inputs) := by
  have hapart : ∀ k, Option.Rel MeansText (n.at? ["with", k])
      ((inputs.find? k).map Assignment.value) := by
    intro k
    rw [at?_with, hwith]
    exact rel_apart hinputs k
  refine ⟨haction, ?_, hapart _, hapart _⟩
  rw [hwith]
  exact .present (meansKeyedBut_inputs action hinputs)

/-- Nothing is passed to an action without inputs. -/
theorem means_of_absent {action : Text} (haction : n.Requires "uses" (MeansText · action))
    (hwith : n.get? "with" = none) : MeansActionUse n (ofAssignments action .empty) := by
  have hpath : ∀ k, n.at? ["with", k] = none := by
    intro k
    rw [at?_with, hwith, Option.bind_none]
  exact ⟨haction, meansOr_other hwith, rel_none (hpath _), rel_none (hpath _)⟩

end ActionUse

namespace Step

/-- The keys and values that say what a step does are those of the node. -/
structure ExecFields.AreOf (n : Node) (f : ExecFields) : Prop where
  run : Option.Rel MeansText (n.get? "run") (f.run.map Prod.snd)
  uses : Option.Rel MeansText (n.get? "uses") (f.uses.map Prod.snd)
  inputs : Option.Rel Eq (n.get? "with") (f.inputs.map Prod.snd)
  shell : Option.Rel MeansText (n.get? "shell") (f.shell.map Prod.snd)
  workingDirectory :
    Option.Rel MeansText (n.get? "working-directory") (f.workingDirectory.map Prod.snd)

theorem sound_readExec {f : ExecFields} (hs : s.Holds (some n)) (hf : f.AreOf n) :
    (readExec owner s pos f).Sound (Given (MeansExec n)) := by
  obtain ⟨hrun, huses, hinputs, hshell, hdir⟩ := hf
  rcases f with ⟨_ | ⟨runKey, script⟩, _ | ⟨usesKey, action⟩, inputs, shell, dir⟩
  · -- keys without values are not there, which is a problem
    have habsent : ∀ key, n.get? key = none → s.has key = false := by
      intro key hkey
      rw [Bool.eq_false_iff, Ne, has_iff, hs.get? key, Option.bind_some, hkey]
      simp
    have hrun := habsent _ (eq_none_of_optionRel_none hrun)
    have huses := habsent _ (eq_none_of_optionRel_none huses)
    intro hclean
    simp [readExec, hrun, huses, Clean] at hclean
  · have haction : n.Requires "uses" (MeansText · action) := exists_of_optionRel_some huses
    refine .bind sound_reportAll fun _ _ => ?_
    rcases inputs with - | ⟨key, v⟩
    · have hwith : n.get? "with" = none := eq_none_of_optionRel_none hinputs
      exact .given (.action (eq_none_of_optionRel_none hrun)
        (ActionUse.means_of_absent haction hwith))
    · obtain ⟨v', hwith, rfl⟩ : n.Requires "with" (· = v) := exists_of_optionRel_some hinputs
      refine .bind ActionUse.sound_readInputs ?_
      rintro _ ⟨inputs, rfl, hinputs⟩
      exact .given (.action (eq_none_of_optionRel_none hrun)
        (ActionUse.means_ofAssignments haction hwith hinputs))
  · have hscript : n.Requires "run" (MeansText · script) := exists_of_optionRel_some hrun
    refine .bind sound_reportAll fun _ _ => ?_
    exact .given (.run (eq_none_of_optionRel_none huses) ⟨hscript, hshell, hdir⟩)
  · -- both keys at once are a problem
    refine .bind sound_reportAll fun _ hexclusive => ?_
    cases hexclusive

theorem sound_readFields (hs : s.Holds (some n)) :
    (readFields what s n.pos).Sound s fun x =>
      x.1.AreOf n ∧ ∀ exec, MeansExec n exec → MeansStep n (x.2 exec) := by
  refine .bind (sound_field hs fun _ => sound_readText) fun id hid => ?_
  refine .bind (sound_field hs fun _ => sound_readText) fun condition hcondition => ?_
  refine .bind (sound_field hs fun _ => sound_readText) fun name hname => ?_
  refine .bind (sound_fieldWithKey hs fun _ => sound_readText) fun run hrun => ?_
  refine .bind (sound_fieldWithKey hs fun _ => sound_readText) fun uses huses => ?_
  refine .bind (sound_fieldWithKey hs fun v => Sound.given (P := (v = ·)) rfl)
    fun inputs hinputs => ?_
  refine .bind (sound_fieldWithKey hs fun _ => sound_readText) fun shell hshell => ?_
  refine .bind (sound_fieldWithKey hs fun _ => sound_readText) fun dir hdir => ?_
  refine .bind (sound_field hs fun _ => sound_readEnv) fun env henv => ?_
  refine .bind (sound_field hs fun _ => sound_readFlag) fun continues hcontinues => ?_
  refine .bind (sound_field hs fun _ => sound_readMinutes) fun timeout htimeout => ?_
  refine .pure ⟨⟨hrun, huses, hinputs, hshell, hdir⟩, fun exec hexec => ?_⟩
  exact ⟨hid, hcondition, hname, hexec, .getD henv, hcontinues, htimeout, rfl⟩

theorem sound_read : (Step.read policy what n).Sound (Given (MeansStep n)) := by
  refine sound_within fun s hs => ?_
  refine .bind (sound_fill (nodup_readFields what s n.pos) (sound_readFields hs)) ?_
  rintro ⟨fields, complete⟩ ⟨hfields, hcomplete⟩
  refine .bind (sound_readExec hs hfields) ?_
  rintro _ ⟨exec, rfl, hexec⟩
  exact .given (hcomplete exec hexec)

theorem sound_readList : (readList policy owner n).Sound (Given (MeansList MeansStep n)) := by
  unfold readList
  split
  · next items hitems =>
    refine Sound.some (Sound.mono (Checked.sound_collect (R := fun item s => MeansStep item.1 s)
      fun _ _ => sound_read) fun steps hsteps => ⟨items, hitems, ?_⟩)
    -- steps are counted for messages only
    rw [← items.zipIdx_map_fst 0, List.forall₂_map_left_iff]
    exact hsteps
  · exact sound_mismatch _ _ _

end Step

/-! ### Runners -/

namespace Runner

theorem sound_readLabels : (readLabels what n).Sound (Given (MeansTextOrTexts n)) :=
  sound_textOrTexts _

/-- What labels ask for is what they mean. -/
theorem means_ofLabels? {labels : List Text} {r : Runner} (hlabels : MeansTextOrTexts n labels)
    (h : ofLabels? labels n.pos = some r) : MeansRunner n r := by
  unfold ofLabels? selfHostedLabel at h
  by_cases hself : ∃ l ∈ labels, l.value = "self-hosted"
  · rw [if_pos (by simpa using hself)] at h
    cases h
    exact .selfHosted hlabels hself
  · rw [if_neg (by simpa using hself)] at h
    rcases labels with - | ⟨label, - | ⟨_, _⟩⟩
    · cases h
    · cases h
      exact .hosted hlabels fun hvalue => hself ⟨label, List.mem_singleton_self _, hvalue⟩
    · cases h

theorem sound_read : (Runner.read what n).Sound (Given (MeansRunner n)) := by
  refine sound_readLabels.andThen fun labels hlabels => ?_
  split
  · next r hr => exact .given (means_ofLabels? hlabels hr)
  · exact sound_mismatch _ _ _

end Runner

/-! ### Jobs -/

namespace Job

theorem sound_readOutputs : (readOutputs what n).Sound (Given (MeansAssignments n)) :=
  sound_readAssignments

theorem sound_readFields (hs : s.Holds (some n)) :
    (readFields policy what id s).Sound s fun x =>
      Option.Rel MeansRunner (n.get? "runs-on") x.1 ∧
      Option.Rel (MeansList MeansStep) (n.get? "steps") x.2.1 ∧
      ∀ runsOn steps, n.Requires "runs-on" (MeansRunner · runsOn) →
        n.Requires "steps" (MeansList MeansStep · steps) →
        MeansJob ⟨id, n⟩ (x.2.2 runsOn steps) := by
  refine .bind (sound_field hs fun _ => sound_readText) fun name hname => ?_
  refine .bind (sound_field hs fun _ => sound_readTextOrTexts) fun needs hneeds => ?_
  refine .bind (sound_field hs fun _ => Runner.sound_read) fun runsOn hrunsOn => ?_
  refine .bind (sound_field hs fun _ => Permissions.sound_read) fun permissions hperms => ?_
  refine .bind (sound_field hs fun _ => Environment.sound_read) fun environment henvironment => ?_
  refine .bind (sound_field hs fun _ => Concurrency.sound_read) fun concurrency hconcurrency => ?_
  refine .bind (sound_field hs fun _ => sound_readOutputs) fun outputs houtputs => ?_
  refine .bind (sound_field hs fun _ => sound_readEnv) fun env henv => ?_
  refine .bind (sound_field hs fun _ => Defaults.sound_read) fun defaults hdefaults => ?_
  refine .bind (sound_field hs fun _ => sound_readText) fun condition hcondition => ?_
  refine .bind (sound_field hs fun _ => Step.sound_readList) fun steps hsteps => ?_
  refine .bind (sound_field hs fun _ => sound_readMinutes) fun timeout htimeout => ?_
  refine .bind (sound_field hs fun _ => Strategy.sound_read) fun strategy hstrategy => ?_
  refine .bind (sound_field hs fun _ => sound_readFlag) fun continues hcontinues => ?_
  refine .bind (sound_field hs fun _ => Container.sound_read) fun container hcontainer => ?_
  refine .bind (sound_field hs fun _ => sound_readServices) fun services hservices => ?_
  refine .pure ⟨hrunsOn, hsteps, fun runsOn steps hrunsOn hsteps => ?_⟩
  exact ⟨rfl, hname, .getD hneeds, hrunsOn, hperms, henvironment, hconcurrency, .getD houtputs,
    .getD henv, hdefaults, hcondition, hsteps, htimeout, hstrategy, hcontinues, hcontainer,
    .getD hservices, rfl⟩

theorem sound_read : (Job.read policy id n).Sound (Given (MeansJob ⟨id, n⟩)) := by
  refine sound_withinOwner fun s hs => ?_
  refine .bind (sound_fill (nodup_readFields policy _ id s) (sound_readFields hs)) ?_
  rintro ⟨runsOn, steps, complete⟩ ⟨hrunsOn, hsteps, hcomplete⟩
  refine .bind (sound_require hs hrunsOn) ?_
  rintro _ ⟨runsOn, rfl, hrunsOn⟩
  refine .bind (sound_require hs hsteps) ?_
  rintro _ ⟨steps, rfl, hsteps⟩
  exact .given (hcomplete runsOn steps hrunsOn hsteps)

theorem sound_readAll : (readAll policy n).Sound (Given (MeansKeyed MeansJob n)) :=
  sound_free fun _ => sound_read

end Job

/-! ### Workflows -/

namespace Workflow

theorem sound_readFields (hs : s.Holds (some n)) :
    (readFields policy what s).Sound s fun x =>
      Option.Rel MeansTriggers (n.get? "on") x.1 ∧
      Option.Rel (MeansKeyed MeansJob) (n.get? "jobs") x.2.1 ∧
      ∀ triggers jobs, n.Requires "on" (MeansTriggers · triggers) →
        n.Requires "jobs" (MeansKeyed MeansJob · jobs) →
        MeansWorkflow n (x.2.2 triggers jobs) := by
  refine .bind (sound_field hs fun _ => sound_readText) fun name hname => ?_
  refine .bind (sound_field hs fun _ => sound_readText) fun runName hrunName => ?_
  refine .bind (sound_field hs fun _ => Trigger.sound_readList) fun triggers htriggers => ?_
  refine .bind (sound_field hs fun _ => Permissions.sound_read) fun permissions hperms => ?_
  refine .bind (sound_field hs fun _ => sound_readEnv) fun env henv => ?_
  refine .bind (sound_field hs fun _ => Defaults.sound_read) fun defaults hdefaults => ?_
  refine .bind (sound_field hs fun _ => Concurrency.sound_read) fun concurrency hconcurrency => ?_
  refine .bind (sound_field hs fun _ => Job.sound_readAll) fun jobs hjobs => ?_
  refine .pure ⟨htriggers, hjobs, fun triggers jobs htriggers hjobs => ?_⟩
  exact ⟨hname, hrunName, htriggers, hperms, .getD henv, hdefaults, hconcurrency, hjobs⟩

theorem sound_read : (Workflow.read policy n).Sound (Given (MeansWorkflow n)) := by
  refine sound_withinOwner fun s hs => ?_
  refine .bind (sound_fill (nodup_readFields policy _ s) (sound_readFields hs)) ?_
  rintro ⟨triggers, jobs, complete⟩ ⟨htriggers, hjobs, hcomplete⟩
  refine .bind (sound_require hs htriggers) ?_
  rintro _ ⟨triggers, rfl, htriggers⟩
  refine .bind (sound_require hs hjobs) ?_
  rintro _ ⟨jobs, rfl, hjobs⟩
  exact .given (hcomplete triggers jobs htriggers hjobs)

/-- What holds of each workflow that is read without problems holds of the result of parsing. -/
theorem of_parse_eq_ok {P : Workflow → Prop} {w : Workflow}
    (hread : (Workflow.read policy n).Sound (Given P)) (h : parse policy n = .ok w) : P w := by
  obtain ⟨hclean, hw⟩ := parse_eq_ok_iff.mp h
  obtain ⟨w', hw', hmeans⟩ := hread hclean
  obtain rfl : w = w' := Option.some.inj (hw.symm.trans hw')
  exact hmeans

/-- **A workflow is what its file means**: each field of each part of a workflow that was read is
absent exactly if its key is, and else it is what stands under the key. -/
theorem means_of_parse (policy : Policy) (root : Node) (w : Workflow)
    (h : parse policy root = .ok w) : MeansWorkflow root w := of_parse_eq_ok sound_read h

/-- A workflow with a filter, a condition and a name that are written and are empty. -/
def blank : Node :=
  .mapping [
    (.scalar "name" true ⟨1, 1⟩, .scalar "" false ⟨1, 7⟩),
    (.scalar "on" true ⟨2, 1⟩, .mapping [
      (.scalar "push" true ⟨3, 3⟩, .mapping [
        (.scalar "branches" true ⟨4, 5⟩, .sequence [] ⟨4, 15⟩)] ⟨4, 5⟩)] ⟨3, 3⟩),
    (.scalar "jobs" true ⟨5, 1⟩, .mapping [
      (.scalar "build" true ⟨6, 3⟩, .mapping [
        (.scalar "if" true ⟨7, 5⟩, .scalar "" false ⟨7, 9⟩),
        (.scalar "runs-on" true ⟨8, 5⟩, .scalar "ubuntu-latest" true ⟨8, 14⟩),
        (.scalar "steps" true ⟨9, 5⟩, .sequence [] ⟨9, 12⟩)] ⟨7, 5⟩)] ⟨6, 3⟩)] ⟨1, 1⟩

theorem means_of_blank : ∃ w, parse {} blank = .ok w ∧ w.name = some ⟨"", ⟨1, 7⟩⟩ ∧
    w.runName = none ∧
    w.triggers = [.webhook { hook := ⟨"push", ⟨3, 3⟩⟩, branches := some [], pos := ⟨3, 3⟩ }] ∧
    (w.jobs.find? "build").bind Job.condition = some ⟨"", ⟨7, 9⟩⟩ ∧ MeansWorkflow blank w :=
  ⟨_, rfl, rfl, rfl, rfl, rfl, means_of_parse {} blank _ rfl⟩

end Workflow

end WorkflowTree
