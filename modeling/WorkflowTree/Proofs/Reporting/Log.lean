import WorkflowTree.Policy
import WorkflowTree.Reading.Checked

/-!
# Logs with a budget

A reader hands on all problems that it finds, and the policy cuts them off at the end.  One may
as well keep a log while reading, which refuses a problem as soon as the budget is used up and
counts all problems that it was offered.  This module shows that both come to the same:

* `Checked.run_bind` says that the log is handed from step to step;
* `Checked.run_empty` says what is in the log at the end.

The invariant is `Log.of`: the log holds what the policy keeps of the problems offered so far.
A problem is offered in one step, and `Log.record_of` says that the step keeps the invariant.
-/

namespace WorkflowTree

variable {α β : Type}

/-- What was kept of the problems so far, and how many there were. -/
@[ext] structure Log where
  kept : List Problem
  seen : Nat

namespace Log

/-- The log at the beginning. -/
def empty : Log := ⟨[], 0⟩

/-- Offers a problem to the log. -/
def record (policy : Policy) (log : Log) (p : Problem) : Log where
  kept := if policy.accepts log.kept.length then log.kept ++ [p] else log.kept
  seen := log.seen + 1

/-- The log of the problems that were found so far. -/
def of (policy : Policy) (found : List Problem) : Log := ⟨policy.keep found, found.length⟩

end Log

/-! ### One problem -/

/-- One more problem is kept exactly if the policy accepts it behind what is kept already. -/
theorem Policy.keep_concat (policy : Policy) (found : List α) (p : α) :
    policy.keep (found ++ [p]) =
      if policy.accepts (policy.keep found).length then policy.keep found ++ [p]
      else policy.keep found := by
  rcases e : policy.budget with - | n
  · simp [keep, accepts, e]
  · simp only [keep, accepts, e, Option.all_some, List.length_take, decide_eq_true_eq]
    have hlength : (found ++ [p]).length = found.length + 1 := List.length_append
    by_cases h : found.length < n
    · -- the budget is not used up: all problems so far are kept, and this one is too
      rw [if_pos (by omega), List.take_of_length_le (by omega), List.take_of_length_le (by omega)]
    · rw [if_neg (by omega), List.take_append_of_le_length (by omega)]

theorem Log.record_of (policy : Policy) (found : List Problem) (p : Problem) :
    (Log.of policy found).record policy p = Log.of policy (found ++ [p]) := by
  ext1
  · exact (policy.keep_concat found p).symm
  · show found.length + 1 = (found ++ [p]).length
    rw [List.length_append, List.length_singleton]

/-! ### All problems -/

theorem Log.foldl_record_of (policy : Policy) (found ps : List Problem) :
    ps.foldl (Log.record policy) (Log.of policy found) = Log.of policy (found ++ ps) := by
  induction ps generalizing found with
  | nil => rw [List.foldl_nil, List.append_nil]
  | cons p ps ih => rw [List.foldl_cons, record_of, ih, List.append_assoc, List.singleton_append]

theorem Log.of_nil (policy : Policy) : Log.of policy [] = .empty := by
  rw [of, Policy.keep_eq_nil.mpr rfl]
  rfl

namespace Checked

/-- Makes a checked value with a log: its problems are offered one by one. -/
def run (policy : Policy) (c : Checked α) (log : Log) : α × Log :=
  (c.value, c.problems.foldl (Log.record policy) log)

@[simp] theorem run_pure (policy : Policy) (a : α) (log : Log) :
    (pure a : Checked α).run policy log = (a, log) := rfl

@[simp] theorem run_report (policy : Policy) (f : Fault) (pos : Position) (log : Log) :
    (report f pos).run policy log = ((), log.record policy ⟨f, pos⟩) := rfl

/-- The second step finds the log as the first one left it. -/
theorem run_bind (policy : Policy) (c : Checked α) (f : α → Checked β) (log : Log) :
    (c >>= f).run policy log = (f (c.run policy log).1).run policy (c.run policy log).2 := by
  simp only [run, value_bind, problems_bind, List.foldl_append]

/-- Whatever is made from the empty log on, the log then holds what the policy keeps of all
problems, and has seen each of them. -/
theorem run_empty (policy : Policy) (c : Checked α) :
    c.run policy .empty = (c.value, Log.of policy c.problems) := by
  rw [run, ← Log.of_nil policy, Log.foldl_record_of, List.nil_append]

end Checked

end WorkflowTree
