/-!
# Policies

How strictly workflows are read, and how many problems of one workflow are kept.

* `Policy.accepts_iff` says that a problem is kept as long as fewer than the budget are;
* `Policy.keep_prefix` says that the problems that are kept are the first ones.
-/

namespace WorkflowTree

/-- How workflows are read. -/
structure Policy where
  /-- Keep only the first problem. -/
  failFast : Bool := false
  /-- Keep at most this many problems, but always one. -/
  maxErrors : Option Nat := none
  /-- Names of webhooks that are accepted besides the known ones. -/
  extraWebhookEvents : List String := []
  /-- Pass over keys that are not part of the syntax. -/
  allowUnknownKeys : Bool := false
  deriving DecidableEq, Repr, Inhabited

namespace Policy

/-- The most problems that are kept, or none if all are. -/
def budget (p : Policy) : Option Nat :=
  if p.failFast then some 1 else p.maxErrors.map (max · 1)

/-- Another problem is kept when `count` problems are. -/
def accepts (p : Policy) (count : Nat) : Bool := p.budget.all (count < ·)

/-- The problems that are kept of those found, which are listed in the order of finding. -/
def keep {α : Type} (p : Policy) (found : List α) : List α :=
  match p.budget with
  | none => found
  | some n => found.take n

theorem budget_pos {p : Policy} {n : Nat} (h : p.budget = some n) : 0 < n := by
  unfold budget at h
  split at h
  · cases h; decide
  · obtain ⟨m, -, rfl⟩ := Option.map_eq_some_iff.1 h
    omega

theorem accepts_iff {p : Policy} {count : Nat} :
    p.accepts count = true ↔ ∀ n, p.budget = some n → count < n := by
  cases h : p.budget <;> simp [accepts, h]

theorem keep_prefix {α : Type} (p : Policy) (found : List α) : p.keep found <+: found := by
  unfold keep
  split
  · exact List.prefix_refl _
  · exact List.take_prefix ..

/-- What is kept is empty only if nothing was found. -/
theorem keep_eq_nil {α : Type} {p : Policy} {found : List α} :
    p.keep found = [] ↔ found = [] := by
  unfold keep
  split
  · rfl
  · next n h =>
    have := budget_pos h
    rw [List.take_eq_nil_iff]
    exact or_iff_right (by omega)

end Policy

end WorkflowTree
