import WorkflowTree.Proofs.Leniency.Pruning
import WorkflowTree.Proofs.Reporting.Budget

/-!
# Strict and lenient reading of workflows

`Workflow.parse_strict_lenient` compares reading a node under two policies that differ only in
whether they pass over unknown keys.  Three facts about the reader carry it: a lenient reader
finds what a strict one finds without the unknown keys (`Workflow.tolerate_read`), a strict reader
of the pruned node finds nothing more than a lenient one of the node (`Workflow.noWorse_read`),
and a workflow is given exactly if nothing is found (`Workflow.parse_eq_ok_iff`).
-/

namespace WorkflowTree.Workflow

open Checked

/-- The problems that are reported when a node is read. -/
def reported (policy : Policy) (root : Node) : List Problem :=
  match parse policy root with
  | .ok _ => []
  | .error ps => ps

theorem reported_eq_sort (policy : Policy) (root : Node) :
    reported policy root = Problem.sort (policy.keep (read policy root).problems) := by
  unfold reported
  by_cases h : (read policy root).problems = []
  · obtain ⟨w, -, hw⟩ := parse_of_problems_eq_nil h
    rw [hw, h, Policy.keep_eq_nil.mpr rfl, Problem.sort, List.mergeSort_nil]
  · rw [parse_of_problems_ne_nil h]

/-- All problems are reported where all are kept. -/
theorem reported_perm {policy : Policy} (hbudget : policy.budget = none) (root : Node) :
    (reported policy root).Perm (read policy root).problems := by
  rw [reported_eq_sort, Policy.keep, hbudget]
  exact Problem.sort_perm _

theorem problems_lenient (policy : Policy) (root : Node) :
    (read policy.lenient root).problems = Problem.tolerated (read policy.strict root).problems :=
  (congrArg problems (tolerate_read policy root)).symm

/-- **Leniency**: let two policies without a budget differ only in whether they pass over unknown
keys.  The lenient one finds the problems that the strict one finds, without those of unknown keys
and in the same order, and it reports them in the same order.  It gives a workflow exactly if all
problems of the strict one are of unknown keys.  What the strict one gives the lenient one gives
too, and what the lenient one gives the strict one gives for the pruned node. -/
theorem parse_strict_lenient (policy : Policy) (root : Node) (h : policy.budget = none) :
    (read policy.lenient root).problems =
        (read policy.strict root).problems.filter (fun p => p.fault.code != "GHWF-005") ∧
      reported policy.lenient root =
        (reported policy.strict root).filter (fun p => p.fault.code != "GHWF-005") ∧
      ((∃ w, parse policy.lenient root = .ok w) ↔
        ∀ p ∈ reported policy.strict root, p.fault.code = "GHWF-005") ∧
      (∀ w, parse policy.strict root = .ok w → parse policy.lenient root = .ok w) ∧
      ∀ w, parse policy.lenient root = .ok w → parse policy.strict (prune root) = .ok w := by
  have hvalue : (read policy.lenient root).value = (read policy.strict root).value :=
    (congrArg value (tolerate_read policy root)).symm
  have hproblems := problems_lenient policy root
  have hkeep : ∀ {p : Policy} {ps : List Problem}, p.budget = none → p.keep ps = ps := by
    intro p ps hp
    rw [Policy.keep, hp]
  have hreported : ∀ {p : Policy}, p.budget = none →
      reported p root = Problem.sort (read p root).problems := by
    intro p hp
    rw [reported_eq_sort, hkeep hp]
  refine ⟨hproblems, ?_, ?_, ?_, ?_⟩
  · rw [hreported (p := policy.lenient) h, hreported (p := policy.strict) h, hproblems]
    exact Problem.sort_filter _ _
  · rw [exists_parse_iff_clean, Clean, hproblems, hreported (p := policy.strict) h]
    simp [Problem.tolerated, Problem.isUnknownKey, List.filter_eq_nil_iff]
  · intro w hw
    obtain ⟨hstrict, hw⟩ := parse_eq_ok_iff.mp hw
    refine parse_eq_ok_iff.mpr ⟨?_, hvalue.trans hw⟩
    rw [hproblems, hstrict]
    rfl
  · intro w hw
    obtain ⟨hlenient, hw⟩ := parse_eq_ok_iff.mp hw
    have hpruned := noWorse_read policy root
    refine parse_eq_ok_iff.mpr ⟨?_, hpruned.value.trans hw⟩
    exact List.sublist_nil.mp (hlenient ▸ hpruned.problems)

/-- A workflow without jobs that has a key too many. -/
def misspelled : Node :=
  .mapping [
    (.scalar "on" true ⟨1, 1⟩, .scalar "push" true ⟨1, 5⟩),
    (.scalar "nmae" true ⟨2, 1⟩, .scalar "checks" true ⟨2, 7⟩),
    (.scalar "jobs" true ⟨3, 1⟩, .mapping [] ⟨3, 7⟩)] ⟨1, 1⟩

/-- The key is all that a strict policy reports, and without it both policies give the same. -/
theorem parse_misspelled :
    (read (Policy.strict {}) misspelled).problems.map (fun p => p.fault.code) = ["GHWF-005"] ∧
    ∃ w, parse (Policy.lenient {}) misspelled = .ok w ∧
      parse (Policy.strict {}) (prune misspelled) = .ok w := by
  obtain ⟨-, -, -, -, hpruned⟩ := parse_strict_lenient {} misspelled rfl
  have hlenient : ∃ w, parse (Policy.lenient {}) misspelled = .ok w := ⟨_, rfl⟩
  obtain ⟨w, hw⟩ := hlenient
  exact ⟨rfl, w, hw, hpruned w hw⟩

end WorkflowTree.Workflow
