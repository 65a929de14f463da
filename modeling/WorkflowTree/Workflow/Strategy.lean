import WorkflowTree.Workflow.Settings

/-!
# Strategies

How often a job runs. A matrix has rows, each with the values of one axis, and is kept as it
is written; the runs that it stands for are counted and not listed.

* `Matrix.countWithin_eq_some` says that a count within the limit is the product of the sizes
  of the axes.
-/

namespace WorkflowTree

/-- One axis of a matrix and its values. -/
structure MatrixRow where
  name : Text
  values : List Text
  deriving DecidableEq, Repr

/-- The axes of a job's runs. -/
structure Matrix where
  rows : Keyed MatrixRow := .empty
  /-- The runs that are added. They may use names that no row has. -/
  included : List Assignments := []
  /-- The runs that are left out. -/
  excluded : List Assignments := []
  pos : Position
  deriving DecidableEq, Repr

/-- How often a job runs. -/
structure Strategy where
  matrix : Option Matrix := none
  failFast : Option Flag := none
  maxParallel : Option Count := none
  pos : Position
  deriving DecidableEq, Repr

namespace Matrix

/-- The greatest count of 64 bits. -/
def countLimit : Nat := 0xFFFFFFFFFFFFFFFF

/-- The product of sizes, unless one of the products on the way, which are taken in the
order of the list, is above the limit. -/
def productWithin (limit : Nat) (sizes : List Nat) : Option Nat :=
  sizes.foldlM (fun n size => if n * size ≤ limit then some (n * size) else none) 1

/-- The number of runs that axes of these sizes stand for. Without axes there are none. -/
def countWithin (limit : Nat) (sizes : List Nat) : Option Nat :=
  if sizes.isEmpty then some 0 else productWithin limit sizes

/-- The number of runs that the rows stand for, before some are added or left out. -/
def rowProduct? (m : Matrix) : Option Nat :=
  countWithin countLimit (m.rows.values.map fun r => r.values.length)

/-- The product of numbers. -/
def product : List Nat → Nat
  | [] => 1
  | size :: sizes => size * product sizes

theorem foldlM_product {limit n p : Nat} {sizes : List Nat}
    (h : sizes.foldlM (fun n size => if n * size ≤ limit then some (n * size) else none) n
      = some p) : p = n * product sizes := by
  induction sizes generalizing n with
  | nil => simpa [product] using h.symm
  | cons size sizes ih =>
    by_cases hle : n * size ≤ limit
    · simp only [List.foldlM_cons, hle, if_true, Option.bind_eq_bind, Option.bind_some] at h
      rw [ih h, product, Nat.mul_assoc]
    · simp [List.foldlM_cons, hle] at h

theorem countWithin_eq_some {limit p : Nat} {sizes : List Nat} (hne : sizes ≠ [])
    (h : countWithin limit sizes = some p) : p = product sizes := by
  rw [countWithin, if_neg (by simpa using hne)] at h
  simpa using foldlM_product h

end Matrix

end WorkflowTree
