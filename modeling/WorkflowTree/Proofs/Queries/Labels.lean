import WorkflowTree.Proofs.Meaning.Workflow

/-!
# The labels of a runner

A runner that is self-hosted does not keep the label that says so.  When it is asked for its labels,
this label is put before the others again, wherever it stood in the file and however often.  So the
labels that a runner gives are those that are written for it, but the one of self-hosted runners
comes first and only once.

A runner without this label has to have one label only.  A sequence of none or of several is refused
as a whole (`Runner.labels_of_read`).
-/

namespace WorkflowTree

open Checked

variable {what : String} {n : Node} {labels : List Text}

namespace Runner

/-- The runner is a self-hosted one. -/
def IsSelfHosted (r : Runner) : Prop := ∃ labels pos, r = .selfHosted labels pos

/-- A runner is what labels ask for: it gives all of them, in order, but the label of self-hosted
runners first and once, and without that label there is only one. -/
structure AskedFor (written : List String) (r : Runner) : Prop where
  labels : r.labels =
    if "self-hosted" ∈ written then "self-hosted" :: written.filter (· ≠ "self-hosted") else written
  single : "self-hosted" ∉ written → written.length = 1
  label : r.labels.head? = some r.label
  selfHosted : r.IsSelfHosted ↔ "self-hosted" ∈ written

/-- A sequence of labels that do not ask for any runner: none of them is that of self-hosted
runners, and there is not exactly one. -/
structure Unclear (items : List Node) (labels : List Text) : Prop where
  texts : List.Forall₂ MeansText items labels
  hosted : ∀ l ∈ labels, l.value ≠ "self-hosted"
  many : labels.length ≠ 1

/-- What is said of labels that do not ask for any runner. -/
def unclear (what : String) (n : Node) : Problem :=
  ⟨.shape what "a single hosted label, or \"self-hosted\" with extra labels" n.describe, n.pos⟩

/-! ### Labels that are understood -/

/-- Keeping labels apart from that of self-hosted runners may be done before or after their places
are forgotten. -/
theorem map_value_filter (labels : List Text) :
    (labels.filter fun l => l.value != "self-hosted").map Located.value =
      (labels.map Located.value).filter (· ≠ "self-hosted") := by
  rw [List.filter_map]
  congr 2
  funext l
  rw [Function.comp_apply, decide_not, bne, beq_eq_decide]

theorem askedFor_hosted {label : Text} {pos : Position} (h : label.value ≠ "self-hosted") :
    AskedFor [label.value] (.hosted label pos) where
  labels := (if_neg fun hmem => h (List.mem_singleton.mp hmem).symm).symm
  single _ := rfl
  label := head?_labels _
  selfHosted := by
    constructor
    · rintro ⟨_, _, hr⟩
      cases hr
    · intro hmem
      exact absurd (List.mem_singleton.mp hmem).symm h

theorem askedFor_selfHosted {pos : Position} (h : ∃ l ∈ labels, l.value = "self-hosted") :
    AskedFor (labels.map Located.value)
      (.selfHosted (labels.filter fun l => l.value != "self-hosted") pos) := by
  have hmem : "self-hosted" ∈ labels.map Located.value := List.mem_map.mpr h
  refine ⟨?_, fun hnot => absurd hmem hnot, head?_labels _, fun _ => hmem, fun _ => ⟨_, _, rfl⟩⟩
  rw [if_pos hmem, ← map_value_filter]
  rfl

end Runner

/-- A runner that a node means is what the labels in it ask for. -/
theorem MeansRunner.askedFor {r : Runner} (h : MeansRunner n r) :
    ∃ labels, MeansTextOrTexts n labels ∧ r.AskedFor (labels.map Located.value) := by
  cases h with
  | hosted hlabels hlabel => exact ⟨_, hlabels, Runner.askedFor_hosted hlabel⟩
  | selfHosted hlabels hself => exact ⟨_, hlabels, Runner.askedFor_selfHosted hself⟩

/-- The labels of a node are its own. -/
theorem MeansTextOrTexts.unique {labels' : List Text} (h : MeansTextOrTexts n labels)
    (h' : MeansTextOrTexts n labels') : labels = labels' := rightUnique_meansText.forall₂ h h'

/-! ### Labels that are not understood -/

namespace Runner

variable {items : List Node} {pos : Position}

theorem readLabels_of_texts (h : List.Forall₂ MeansText items labels) :
    readLabels what (.sequence items pos) = pure (some labels) := by
  have hitems : collect (items.map (readText s!"element of {what}")) = pure labels := by
    induction h with
    | nil => rfl
    | @cons item label items labels hlabel _ ih =>
      -- the first item is a text, and nothing is wrong with the others
      have hitem : readText s!"element of {what}" item = pure (some label) := by
        unfold readText
        rw [show item.leaf? = some label from hlabel]
      have hvalues := congrArg Checked.value ih
      have hproblems := congrArg Checked.problems ih
      rw [value_collect] at hvalues
      rw [problems_collect] at hproblems
      apply Checked.ext
      · rw [value_collect, List.map_cons, List.filterMap_cons_some (by rw [hitem]; rfl), hvalues]
        rfl
      · rw [problems_collect, List.map_cons, List.flatMap_cons, hitem, hproblems]
        rfl
  show (some <$> collect (items.map (readText s!"element of {what}"))) = _
  rw [hitems]
  rfl

theorem Unclear.ofLabels? (h : Unclear items labels) : ofLabels? labels pos = none := by
  by_contra hsome
  rcases (ofLabels?_ne_none pos).mp hsome with hone | ⟨l, hl, hself⟩
  · exact h.many hone
  · exact h.hosted l hl hself

/-- No runner is what such labels ask for. -/
theorem Unclear.not_askedFor (h : Unclear items labels) (r : Runner) :
    ¬r.AskedFor (labels.map Located.value) := by
  intro hasked
  have hnot : "self-hosted" ∉ labels.map Located.value := by
    intro hmem
    obtain ⟨l, hl, hself⟩ := List.mem_map.mp hmem
    exact h.hosted l hl hself
  have hone := hasked.single hnot
  rw [List.length_map] at hone
  exact h.many hone

theorem read_of_unclear (h : Unclear items labels) :
    Runner.read what (.sequence items pos) = ⟨none, [unclear what (.sequence items pos)]⟩ := by
  have hnone : Runner.ofLabels? labels (Node.sequence items pos).pos = none := h.ofLabels?
  unfold Runner.read
  rw [readLabels_of_texts h.texts, andThen_of_some (value_pure _), hnone]
  rfl

end Runner

/-! ### Jobs -/

namespace Workflow

variable {policy : Policy} {root v : Node} {w : Workflow} {id : String} {j : Job}

/-- Each job of a workflow that is accepted has the runner that its file means. -/
theorem exists_means_runsOn (h : parse policy root = .ok w) (hj : w.jobs.find? id = some j) :
    ∃ v, root.at? ["jobs", id, "runs-on"] = some v ∧ MeansRunner v j.runsOn := by
  have hmeans : MeansWorkflow root w := of_parse_eq_ok sound_read h
  obtain ⟨jobs, hjobs, hkeyed⟩ := hmeans.jobs
  obtain ⟨e, he, hjob⟩ := exists_of_optionRel_some (hj ▸ hkeyed.rel id)
  obtain ⟨v, hv, hrunner⟩ := hjob.runsOn
  have hid : jobs.get? id = some e.value := by
    rw [← Node.map_value_entryAt?, he, Option.map_some]
  refine ⟨v, ?_, hrunner⟩
  simp [Node.at?, hjobs, hid, hv]

/-- A job that stands in a file that is accepted is a job of the workflow. -/
theorem exists_job_of_at? (h : parse policy root = .ok w)
    (hv : root.at? ["jobs", id, "runs-on"] = some v) : ∃ j, w.jobs.find? id = some j := by
  have hmeans : MeansWorkflow root w := of_parse_eq_ok sound_read h
  obtain ⟨jobs, hjobs, hkeyed⟩ := hmeans.jobs
  have hid : jobs.get? id ≠ none := by
    intro hnone
    simp [Node.at?, hjobs, hnone] at hv
  rw [← Node.map_value_entryAt?, Ne, Option.map_eq_none_iff] at hid
  obtain ⟨hnone, -⟩ | ⟨_, j, -, hj, -⟩ := optionRel_cases (hkeyed.rel id)
  · exact absurd hnone hid
  · exact ⟨j, hj⟩

/-- Each job of a workflow that is accepted has the runner that its labels ask for. -/
theorem exists_askedFor_runsOn (h : parse policy root = .ok w) (hj : w.jobs.find? id = some j) :
    ∃ v labels, root.at? ["jobs", id, "runs-on"] = some v ∧ MeansTextOrTexts v labels ∧
      j.runsOn.AskedFor (labels.map Located.value) := by
  obtain ⟨v, hv, hrunner⟩ := exists_means_runsOn h hj
  obtain ⟨labels, hlabels, hasked⟩ := hrunner.askedFor
  exact ⟨v, labels, hv, hlabels, hasked⟩

/-- No file is accepted with a job whose labels ask for no runner. -/
theorem exists_error_of_unclear {items : List Node} {pos : Position} (policy : Policy)
    (h : Runner.Unclear items labels)
    (hat : root.at? ["jobs", id, "runs-on"] = some (.sequence items pos)) :
    ∃ ps, parse policy root = .error ps := by
  rcases hparse : parse policy root with ps | w
  · exact ⟨ps, rfl⟩
  · obtain ⟨j, hj⟩ := exists_job_of_at? hparse hat
    obtain ⟨v, labels', hv, hlabels', hasked⟩ := exists_askedFor_runsOn hparse hj
    obtain rfl : v = .sequence items pos := Option.some.inj (hv.symm.trans hat)
    have hlabels : MeansTextOrTexts (.sequence items pos) labels := h.texts
    obtain rfl := hlabels.unique hlabels'
    exact absurd hasked (h.not_askedFor j.runsOn)

end Workflow

/-- **The labels of a runner**: a node that is accepted as a runner gives one that is what its labels
ask for, and so does each job of a file that is accepted.  Its labels are those of the node, in order,
but the label of self-hosted runners comes first and once; the deciding label is the first one; and
it is self-hosted exactly if that label is written.  A sequence of labels that ask for no runner gives
no runner and one problem, which stands at the sequence, and no file with such a job is accepted. -/
theorem Runner.labels_of_read :
    (∀ what n, (Runner.read what n).Clean → ∃ r labels, (Runner.read what n).value = some r ∧
      MeansTextOrTexts n labels ∧ r.AskedFor (labels.map Located.value)) ∧
    (∀ policy root w, Workflow.parse policy root = .ok w → ∀ id j, w.jobs.find? id = some j →
      ∃ v labels, root.at? ["jobs", id, "runs-on"] = some v ∧
        MeansTextOrTexts v labels ∧ j.runsOn.AskedFor (labels.map Located.value)) ∧
    ∀ items labels pos, Unclear items labels →
      (∀ what, ∃ p, Runner.read what (.sequence items pos) = ⟨none, [p]⟩ ∧
        p = unclear what (.sequence items pos) ∧ p.fault.code = "GHWF-001" ∧ p.pos = pos) ∧
      ∀ policy root id, root.at? ["jobs", id, "runs-on"] = some (.sequence items pos) →
        ∃ ps, Workflow.parse policy root = .error ps := by
  refine ⟨?_, ?_, ?_⟩
  · intro what n hclean
    obtain ⟨r, hr, hmeans⟩ := Runner.sound_read hclean
    obtain ⟨labels, hlabels, hasked⟩ := hmeans.askedFor
    exact ⟨r, labels, hr, hlabels, hasked⟩
  · intro policy root w hw id j hj
    exact Workflow.exists_askedFor_runsOn hw hj
  · intro items labels pos hunclear
    refine ⟨fun what => ⟨_, read_of_unclear hunclear, rfl, rfl, rfl⟩, ?_⟩
    intro policy root id hat
    exact Workflow.exists_error_of_unclear policy hunclear hat

/-- Labels with the one of self-hosted runners among them, twice. -/
def Node.ownRunner : Node :=
  .sequence [.scalar "linux" true ⟨5, 15⟩, .scalar "self-hosted" true ⟨5, 22⟩,
    .scalar "x64" true ⟨5, 35⟩, .scalar "self-hosted" false ⟨5, 40⟩] ⟨5, 14⟩

/-- The other two labels alone would not ask for a runner. -/
theorem Runner.labels_of_ownRunner :
    (∃ r labels, (Runner.read "runner" Node.ownRunner).value = some r ∧
      r.labels = ["self-hosted", "linux", "x64"] ∧ MeansTextOrTexts Node.ownRunner labels ∧
      r.AskedFor (labels.map Located.value)) ∧
    ∃ p, Runner.read "runner" (.sequence [.scalar "linux" true ⟨5, 15⟩,
      .scalar "x64" true ⟨5, 22⟩] ⟨5, 14⟩) = ⟨none, [p]⟩ ∧ p.fault.code = "GHWF-001" := by
  constructor
  · have hclean : (Runner.read "runner" Node.ownRunner).Clean := by rfl
    obtain ⟨r, labels, hr, hlabels, hasked⟩ :=
      Runner.labels_of_read.1 "runner" Node.ownRunner hclean
    refine ⟨r, labels, hr, ?_, hlabels, hasked⟩
    cases hr
    rfl
  · have hunclear : Unclear [.scalar "linux" true ⟨5, 15⟩, .scalar "x64" true ⟨5, 22⟩]
        [⟨"linux", ⟨5, 15⟩⟩, ⟨"x64", ⟨5, 22⟩⟩] := by
      refine ⟨.cons rfl (.cons rfl .nil), ?_, by decide⟩
      simp
    obtain ⟨p, hp, -, hcode, -⟩ :=
      (Runner.labels_of_read.2.2 _ _ ⟨5, 14⟩ hunclear).1 "runner"
    exact ⟨p, hp, hcode⟩

end WorkflowTree
