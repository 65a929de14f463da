import WorkflowTree.Proofs.Provenance.Readers
import WorkflowTree.Proofs.Reporting.Budget

/-!
# Nothing is invented

The reader of workflows is grounded in the node that it reads (`Workflow.grounded_read`).  For the
result of parsing this gives two statements, one for each outcome:

* `Workflow.leaves_of_parse` says where the leaves of a workflow come from;
* `Workflow.evidence_of_parse` says what stands behind the problems that are reported.
-/

namespace WorkflowTree.Workflow

open Checked

/-- **No leaf is invented**: each text of a workflow that was read is the text of a scalar at the
place of the text, each truth value and each number is what a plain scalar at its place says, and
each place is the place of a node. -/
theorem leaves_of_parse (policy : Policy) (root : Node) (w : Workflow)
    (h : parse policy root = .ok w) : ∀ l ∈ leaves w, l.IsFrom root := by
  unfold parse at h
  split at h
  · next hread =>
    cases h
    have hvalue := (grounded_read policy root).value
    rw [hread] at hvalue
    exact isFrom_some.mp hvalue
  · cases h

/-- A workflow in which leaves of all kinds are read. -/
def release : Node :=
  .mapping [
    (.scalar "on" true ⟨1, 1⟩, .scalar "push" true ⟨1, 5⟩),
    (.scalar "permissions" true ⟨2, 1⟩, .scalar "read-all" true ⟨2, 14⟩),
    (.scalar "jobs" true ⟨3, 1⟩, .mapping [
      (.scalar "pack" true ⟨4, 3⟩, .mapping [
        (.scalar "runs-on" true ⟨5, 5⟩, .scalar "ubuntu-latest" true ⟨5, 14⟩),
        (.scalar "timeout-minutes" true ⟨6, 5⟩, .scalar "15" true ⟨6, 22⟩),
        (.scalar "strategy" true ⟨7, 5⟩, .mapping [
          (.scalar "fail-fast" true ⟨8, 7⟩, .scalar "false" true ⟨8, 18⟩),
          (.scalar "max-parallel" true ⟨9, 7⟩, .scalar "2" true ⟨9, 21⟩)] ⟨8, 7⟩),
        (.scalar "steps" true ⟨10, 5⟩, .sequence [.mapping [
          (.scalar "run" true ⟨11, 9⟩, .scalar "make" false ⟨11, 14⟩)] ⟨11, 9⟩] ⟨11, 7⟩)]
        ⟨5, 5⟩)] ⟨4, 3⟩)] ⟨1, 1⟩

theorem leaves_of_release : ∃ w, parse {} release = .ok w ∧ (leaves w).length = 16 ∧
    ∀ l ∈ leaves w, l.IsFrom release :=
  ⟨_, rfl, rfl, leaves_of_parse {} release _ rfl⟩

/-- **No problem is invented**: each problem that is reported stands where a node stands.  A
repeated key is the key of two entries of one mapping, the first with that key and a later one; an
unknown key is the key of an entry; and what is found in place of something else is a node there. -/
theorem evidence_of_parse (policy : Policy) (root : Node) (ps : List Problem)
    (h : parse policy root = .error ps) : ∀ p ∈ ps, p.IsEvidenced root := by
  unfold parse at h
  split at h
  · cases h
  · next hread =>
    cases h
    intro p hp
    have hproblems := (grounded_read policy root).problems
    rw [hread] at hproblems
    exact hproblems p ((policy.keep_prefix _).subset (Problem.mem_sort.mp hp))

/-- A workflow with a repeated key, an unknown key and jobs of the wrong shape. -/
def faulty : Node :=
  .mapping [
    (.scalar "on" true ⟨1, 1⟩, .scalar "push" true ⟨1, 5⟩),
    (.scalar "nmae" true ⟨2, 1⟩, .scalar "checks" true ⟨2, 7⟩),
    (.scalar "on" true ⟨3, 1⟩, .scalar "push" true ⟨3, 5⟩),
    (.scalar "jobs" true ⟨4, 1⟩, .sequence [] ⟨4, 7⟩)] ⟨1, 1⟩

theorem evidence_of_faulty : ∃ ps, parse {} faulty = .error ps ∧ ps.length = 3 ∧
    ∀ p ∈ ps, p.IsEvidenced faulty := by
  have hfound : (read {} faulty).problems.length = 3 := rfl
  have hparse : parse {} faulty = .error (Problem.sort (read {} faulty).problems) :=
    parse_of_problems_ne_nil (List.length_pos_iff.mp (hfound ▸ Nat.succ_pos 2))
  refine ⟨_, hparse, ?_, evidence_of_parse {} faulty _ hparse⟩
  rw [Problem.length_sort, hfound]

end WorkflowTree.Workflow
