import WorkflowTree.Proofs.Reporting.Log
import WorkflowTree.Proofs.Simulation.Workflow

/-!
# The budget of a policy

How many problems a policy keeps has no influence on what is read: readers ask a policy which
keys and which triggers it accepts, and nothing else.  So the same problems are found without
any budget (`Workflow.read_unlimited`), and the budget only cuts the list of them off before it
is sorted.
-/

namespace WorkflowTree

variable {α : Type}

/-! ### Without a budget -/

/-- The policy that accepts the same and keeps all problems. -/
def Policy.unlimited (policy : Policy) : Policy :=
  { policy with failFast := false, maxErrors := none }

theorem Workflow.read_unlimited (policy : Policy) : read policy.unlimited = read policy := by
  funext root
  let σ : Simulation True policy policy.unlimited := .same rfl fun _ _ _ => rfl
  exact read_of_transfers (transfers_read (show σ.Rel Workflow.schema root root from rfl))

/-! ### With a budget -/

/-- The most problems that are kept of so many. -/
def Policy.limit (policy : Policy) (found : Nat) : Nat :=
  if policy.failFast then 1 else policy.maxErrors.elim found fun n => max n 1

theorem Policy.keep_eq_take (policy : Policy) (found : List α) :
    policy.keep found = found.take (min found.length (policy.limit found.length)) := by
  have htake : ∀ n, found.take n = found.take (min found.length n) := by
    intro n
    rw [List.take_eq_take_iff, Nat.min_comm found.length n, Nat.min_assoc, Nat.min_self]
  unfold keep budget limit
  rcases policy.failFast with - | -
  · rcases policy.maxErrors with - | n
    · show found = found.take (min found.length found.length)
      rw [Nat.min_self, List.take_length]
    · exact htake (max n 1)
  · exact htake 1

/-! ### The order of problems -/

/-- A list of problems is another one sorted by place, and problems at one place stand in the
order of the other list. -/
structure Problem.StablySorted (found sorted : List Problem) : Prop where
  perm : sorted.Perm found
  ordered : sorted.Pairwise fun p q => p.pos.le q.pos = true
  stable : ∀ pos, (sorted.filter fun p => p.pos == pos) = found.filter fun p => p.pos == pos

theorem Problem.stablySorted_sort (found : List Problem) : StablySorted found (sort found) where
  perm := sort_perm found
  ordered := sort_pairwise found
  stable := by
    intro pos
    -- sorting keeps a sublist that is ordered already
    have hordered : (found.filter fun p => p.pos == pos).Pairwise fun p q =>
        p.pos.le q.pos = true := by
      refine List.pairwise_of_forall_mem_list fun p hp q hq => ?_
      rw [List.mem_filter, beq_iff_eq] at hp hq
      rw [hp.2, hq.2]
      exact Position.le_refl pos
    have hsub : (found.filter fun p => p.pos == pos).Sublist (sort found) :=
      @List.sublist_mergeSort _ (fun p q : Problem => p.pos.le q.pos) found
        (fun _ _ _ => Position.le_trans) (fun p q => Position.le_total p.pos q.pos) _ hordered
        List.filter_sublist
    have hfilter := hsub.filter fun p => p.pos == pos
    simp only [List.filter_filter, Bool.and_self] at hfilter
    exact (hfilter.eq_of_length ((sort_perm found).filter _).length_eq.symm).symm

/-- The first of sorted problems is not behind any problem that stands somewhere among them. -/
theorem Problem.le_of_stable {p q : Problem} {ps qs : List Problem}
    (hp : (p :: ps).Pairwise fun p q => p.pos.le q.pos = true)
    (h : ∀ pos, ((p :: ps).filter fun p => p.pos == pos) =
      (q :: qs).filter fun p => p.pos == pos) : p.pos.le q.pos = true := by
  have hmem : q ∈ (p :: ps).filter fun p => p.pos == q.pos := by
    rw [h]
    simp
  rcases List.mem_cons.mp (List.mem_of_mem_filter hmem) with rfl | hq
  · exact Position.le_refl _
  · exact List.rel_of_pairwise_cons hp hq

/-- Sorted problems are determined by what stands at each place, in order. -/
theorem Problem.eq_of_stable {ps qs : List Problem}
    (hp : ps.Pairwise fun p q => p.pos.le q.pos = true)
    (hq : qs.Pairwise fun p q => p.pos.le q.pos = true)
    (h : ∀ pos, (ps.filter fun p => p.pos == pos) = qs.filter fun p => p.pos == pos) :
    ps = qs := by
  induction ps generalizing qs with
  | nil =>
    rcases qs with - | ⟨q, qs⟩
    · rfl
    · simpa using h q.pos
  | cons p ps ih =>
    rcases qs with - | ⟨q, qs⟩
    · simpa using h p.pos
    have hpos : p.pos = q.pos :=
      Position.le_antisymm (le_of_stable hp h) (le_of_stable hq fun pos => (h pos).symm)
    have hhead := h p.pos
    rw [List.filter_cons_of_pos (by simp), List.filter_cons_of_pos (by simp [hpos])] at hhead
    obtain rfl := (List.cons.inj hhead).1
    refine congrArg (p :: ·) (ih hp.of_cons hq.of_cons fun pos => ?_)
    have htail := h pos
    rw [List.filter_cons, List.filter_cons] at htail
    split at htail
    · exact (List.cons.inj htail).2
    · exact htail

/-- Leaving problems out and sorting the others may be done in either order. -/
theorem Problem.sort_filter (f : Problem → Bool) (ps : List Problem) :
    sort (ps.filter f) = (sort ps).filter f := by
  refine eq_of_stable (sort_pairwise _) ((sort_pairwise ps).filter f) fun pos => ?_
  rw [(stablySorted_sort _).stable, List.filter_filter, List.filter_filter]
  simp only [Bool.and_comm (_ == pos)]
  rw [← List.filter_filter, ← List.filter_filter, (stablySorted_sort ps).stable]

/-! ### The main statement -/

namespace Workflow

theorem parse_of_problems_eq_nil {policy : Policy} {root : Node}
    (h : (read policy root).problems = []) :
    ∃ w, (read policy root).value = some w ∧ parse policy root = .ok w := by
  obtain ⟨w, hw⟩ := (explained_read policy root).exists_value h
  refine ⟨w, hw, ?_⟩
  have hread : read policy root = ⟨some w, []⟩ := Checked.ext hw h
  rw [parse, hread]

theorem parse_of_problems_ne_nil {policy : Policy} {root : Node}
    (h : (read policy root).problems ≠ []) :
    parse policy root = .error (Problem.sort (policy.keep (read policy root).problems)) := by
  unfold parse
  split
  · next hread => simp [hread] at h
  · next hread => rw [hread]

/-- **The budget cuts off a list**: let `found` be the problems in the order in which they are
found without a budget.  If there are none, the same workflow is given with and without the
budget.  If there are some, the first ones are given, as many as the budget allows, sorted by
place; a log that keeps to the budget while reading holds the same ones and has seen all. -/
theorem parse_eq_of_unlimited (policy : Policy) (root : Node) :
    let found := (read policy.unlimited root).problems
    let kept := found.take (min found.length (policy.limit found.length))
    read policy root = read policy.unlimited root ∧
    (found = [] → ∃ w, parse policy.unlimited root = .ok w ∧ parse policy root = .ok w) ∧
    (found ≠ [] → parse policy root = .error (Problem.sort kept)) ∧
    Problem.StablySorted kept (Problem.sort kept) ∧
    (read policy root).run policy .empty =
      ((read policy.unlimited root).value, ⟨kept, found.length⟩) := by
  intro found kept
  have hread : read policy root = read policy.unlimited root :=
    congrFun (read_unlimited policy).symm root
  have hproblems : (read policy root).problems = found := congrArg Checked.problems hread
  have hkeep : policy.keep (read policy root).problems = kept := by
    rw [hproblems]
    exact policy.keep_eq_take found
  refine ⟨hread, ?_, ?_, Problem.stablySorted_sort kept, ?_⟩
  · intro hfound
    obtain ⟨w, hvalue, hparse⟩ := parse_of_problems_eq_nil hfound
    obtain ⟨w', hvalue', hparse'⟩ := parse_of_problems_eq_nil (hproblems.trans hfound)
    obtain rfl : w' = w := Option.some.inj (by rw [← hvalue', hread, hvalue])
    exact ⟨w', hparse, hparse'⟩
  · intro hfound
    rw [parse_of_problems_ne_nil (hproblems ▸ hfound), hkeep]
  · rw [Checked.run_empty, Log.of, hkeep, hproblems, hread]

end Workflow

end WorkflowTree
