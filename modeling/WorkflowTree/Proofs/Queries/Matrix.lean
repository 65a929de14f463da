import WorkflowTree.Workflow.Strategy
import Mathlib.Algebra.BigOperators.Group.List.Lemmas
import Mathlib.Algebra.BigOperators.Ring.List
import Mathlib.Algebra.GroupWithZero.Nat

/-!
# The number of runs of a matrix

The rows of a matrix are multiplied one after the other, and the count is given up as soon as a
product on the way is too great.  A collection is a finite map, whose values may come in any order,
so the count is looked at in every order of the rows.

A count that is given is the number of runs, and it is given if no product on the way is too great.
A row without values makes the number of runs zero, but only once it is reached: the order matters
exactly if there is such a row and the other rows stand for too many runs
(`Matrix.count_by_order`).  `Matrix.count_crowded` is such a case.
-/

namespace WorkflowTree

namespace Matrix

/-! ### Products -/

/-- A product on the way divides the whole product, so it is no greater unless that one is zero. -/
theorem prod_le_of_sublist {part sizes : List Nat} (h : part.Sublist sizes) (hpos : 0 ∉ sizes) :
    part.prod ≤ sizes.prod :=
  Nat.le_of_dvd (Nat.pos_of_ne_zero (List.prod_ne_zero hpos)) h.prod_dvd_prod

/-- If the sizes other than zero do not multiply to too much, no product on the way is too great. -/
theorem prod_le_of_filter {limit : Nat} {part sizes : List Nat} (h : part.Sublist sizes)
    (hlimit : (sizes.filter (· != 0)).prod ≤ limit) : part.prod ≤ limit := by
  by_cases hzero : 0 ∈ part
  · rw [List.prod_eq_zero hzero]
    exact Nat.zero_le limit
  · have hpart : part.filter (· != 0) = part := by
      rw [List.filter_eq_self]
      rintro size hsize
      exact bne_iff_ne.mpr fun hz => hzero (hz ▸ hsize)
    have hsub : part.Sublist (sizes.filter (· != 0)) := hpart ▸ h.filter (· != 0)
    exact (prod_le_of_sublist hsub (by simp)).trans hlimit

/-- What multiplies the sizes one after the other gives their product if no product on the way is
too great. -/
theorem foldlM_eq_some_iff {limit n p : Nat} {sizes : List Nat} (hn : n ≤ limit) :
    sizes.foldlM (fun n size => if n * size ≤ limit then some (n * size) else none) n = some p ↔
      p = n * sizes.prod ∧ ∀ part, part <+: sizes → n * part.prod ≤ limit := by
  induction sizes generalizing n with
  | nil => simp [hn, eq_comm]
  | cons size sizes ih =>
    rw [List.foldlM_cons]
    by_cases hle : n * size ≤ limit
    · rw [if_pos hle, Option.bind_eq_bind, Option.bind_some, ih hle, List.prod_cons, Nat.mul_assoc]
      refine and_congr_right fun _ => ⟨?_, ?_⟩
      · intro hall part hpart
        rcases List.prefix_cons_iff.mp hpart with rfl | ⟨rest, rfl, hrest⟩
        · simpa using hn
        · rw [List.prod_cons, ← Nat.mul_assoc]
          exact hall rest hrest
      · intro hall part hpart
        have hcons := hall (size :: part) ((List.prefix_cons_inj size).mpr hpart)
        rwa [List.prod_cons, ← Nat.mul_assoc] at hcons
    · -- the product with the first size is one on the way
      rw [if_neg hle, Option.bind_eq_bind, Option.bind_none]
      constructor
      · intro h
        cases h
      · rintro ⟨-, hall⟩
        exact absurd (by simpa using hall [size] (by simp)) hle

/-! ### Counting the rows in some order -/

/-- The numbers of values of rows. -/
def sizes (rows : List MatrixRow) : List Nat := rows.map fun r => r.values.length

/-- The number of ways to choose a value of each row. -/
def combinations (rows : List MatrixRow) : Nat := (sizes rows).prod

/-- The number of runs that the rows of a matrix stand for.  Without rows there are none. -/
def runCount (m : Matrix) : Nat := if m.rows.values = [] then 0 else combinations m.rows.values

/-- The number of runs, if it is within 64 bits. -/
def exactCount? (m : Matrix) : Option Nat :=
  if m.runCount ≤ countLimit then some m.runCount else none

/-- The count of rows that come in the order of a list. -/
def countRows? (rows : List MatrixRow) : Option Nat := countWithin countLimit (sizes rows)

/-- The rows of a matrix are counted in the order in which the collection holds them. -/
theorem rowProduct?_eq (m : Matrix) : m.rowProduct? = countRows? m.rows.values := rfl

variable {m : Matrix} {rows order : List MatrixRow}

theorem combinations_perm (h : order.Perm rows) : combinations order = combinations rows :=
  (h.map _).prod_eq

/-- A row without values leaves nothing to choose. -/
theorem combinations_eq_zero : combinations rows = 0 ↔ ∃ r ∈ rows, r.values = [] := by
  rw [combinations, List.prod_eq_zero_iff, sizes, List.mem_map]
  simp only [List.length_eq_zero_iff]

theorem filter_sizes (rows : List MatrixRow) :
    (sizes rows).filter (· != 0) = sizes (rows.filter (·.values ≠ [])) := by
  rw [sizes, sizes, List.filter_map]
  congr 2
  funext r
  rcases h : r.values with - | _ <;> simp [h]

/-- A count that is given is the number of runs, and no product on the way to it is too great. -/
theorem countRows?_eq_some_iff {p : Nat} (h : order.Perm m.rows.values) :
    countRows? order = some p ↔
      p = m.runCount ∧ ∀ part, part <+: order → combinations part ≤ countLimit := by
  have hone : 1 ≤ countLimit := by decide
  have hprefixes : (∀ part, part <+: sizes order → 1 * part.prod ≤ countLimit) ↔
      ∀ part, part <+: order → combinations part ≤ countLimit := by
    simp only [Nat.one_mul, sizes, combinations, List.prefix_map_iff]
    constructor
    · intro hall part hpart
      exact hall _ ⟨part, hpart, rfl⟩
    · rintro hall _ ⟨part, hpart, rfl⟩
      exact hall part hpart
  rw [runCount, countRows?, countWithin]
  by_cases hnil : order = []
  · -- without rows there is nothing to multiply
    subst hnil
    rw [if_pos h.nil_eq.symm]
    simpa [sizes, combinations, eq_comm] using fun _ => hone
  · have hne : m.rows.values ≠ [] := fun hrows => hnil (hrows ▸ h).eq_nil
    rw [if_neg (by simpa [sizes] using hnil), if_neg hne, ← combinations_perm h, productWithin,
      foldlM_eq_some_iff hone, Nat.one_mul, hprefixes, combinations]

/-- If the rows with values do not stand for too many runs, the count is exact in every order. -/
theorem countRows?_of_le (h : order.Perm m.rows.values)
    (hlimit : combinations (m.rows.values.filter (·.values ≠ [])) ≤ countLimit) :
    countRows? order = some m.runCount := by
  rw [countRows?_eq_some_iff h]
  refine ⟨rfl, fun part hpart => prod_le_of_filter (hpart.map _).sublist ?_⟩
  rw [← sizes, filter_sizes]
  exact (combinations_perm (h.filter _)).trans_le hlimit

/-- A row without values leaves no runs, which is a count that is never too great. -/
theorem exactCount?_of_empty (h : ∃ r ∈ m.rows.values, r.values = []) :
    m.exactCount? = some m.runCount := by
  have hzero : m.runCount = 0 := by
    rw [runCount]
    split
    · rfl
    · exact combinations_eq_zero.mpr h
  rw [exactCount?, hzero, if_pos (Nat.zero_le _)]

/-- Where all rows have values, the count is exact in every order. -/
theorem countRows?_of_nonempty (h : order.Perm m.rows.values)
    (hvalues : ∀ r ∈ m.rows.values, r.values ≠ []) : countRows? order = m.exactCount? := by
  have hfilter : m.rows.values.filter (·.values ≠ []) = m.rows.values := by
    simpa [List.filter_eq_self] using hvalues
  by_cases hlimit : combinations m.rows.values ≤ countLimit
  · have hcount : countRows? order = some m.runCount := countRows?_of_le h (by rwa [hfilter])
    have hle : m.runCount ≤ countLimit := by
      rw [runCount]
      split
      · exact Nat.zero_le _
      · exact hlimit
    rw [hcount, exactCount?, if_pos hle]
  · -- the product of all rows is one on the way
    have hnone : countRows? order = none := by
      rw [Option.eq_none_iff_forall_ne_some]
      intro p hp
      have hall := ((countRows?_eq_some_iff h).mp hp).2 order (List.prefix_refl _)
      exact hlimit (combinations_perm h ▸ hall)
    have hne : m.rows.values ≠ [] := by
      rintro hnil
      rw [hnil] at hlimit
      exact hlimit (by decide)
    rw [hnone, exactCount?, runCount, if_neg hne, if_neg hlimit]

/-- **The number of runs of a matrix**, whatever the order in which its rows come: a count that is
given is the number of runs, and it is given if no product on the way is too great.  So the answer is
exact in every order, which is nothing for more runs than 64 bits count, but for one kind of matrix:
a row has no values, and the others stand for too many runs. -/
theorem count_by_order (m : Matrix) :
    m.rowProduct? = countRows? m.rows.values ∧
    (∀ order : List MatrixRow, order.Perm m.rows.values → ∀ p, countRows? order = some p ↔
      p = m.runCount ∧ ∀ part, part <+: order → combinations part ≤ countLimit) ∧
    ((∀ order : List MatrixRow, order.Perm m.rows.values → countRows? order = m.exactCount?) ↔
      ((∃ r ∈ m.rows.values, r.values = []) →
        combinations (m.rows.values.filter (·.values ≠ [])) ≤ countLimit)) := by
  refine ⟨rowProduct?_eq m, fun order h p => countRows?_eq_some_iff h, ?_, ?_⟩
  · intro hexact hempty
    -- in the order with these rows first, their product is one on the way
    have hperm := List.filter_append_perm (fun r : MatrixRow => decide (r.values ≠ []))
      m.rows.values
    have hcount := (hexact _ hperm).trans (exactCount?_of_empty hempty)
    exact ((countRows?_eq_some_iff hperm).mp hcount).2 _ (List.prefix_append ..)
  · intro hlimit order h
    by_cases hempty : ∃ r ∈ m.rows.values, r.values = []
    · rw [countRows?_of_le h (hlimit hempty), exactCount?_of_empty hempty]
    · exact countRows?_of_nonempty h fun r hr hnil => hempty ⟨r, hr, hnil⟩

/-- A matrix with eight rows of 256 values each, which stand for too many runs, and a row without
values behind them. -/
def crowded : Matrix where
  rows := .ofList ((["a", "b", "c", "d", "e", "f", "g", "h"].map fun name =>
    (name, ⟨⟨name, ⟨1, 1⟩⟩, List.replicate 256 ⟨"x", ⟨1, 1⟩⟩⟩)) ++ [("none", ⟨⟨"none", ⟨2, 1⟩⟩, []⟩)])
  pos := ⟨1, 1⟩

/-- There are no runs, and that is found if the row without values comes first and not if it comes
last. -/
theorem count_crowded : crowded.exactCount? = some 0 ∧
    countRows? crowded.rows.values.reverse = some 0 ∧ countRows? crowded.rows.values = none := by
  decide +kernel

end Matrix

end WorkflowTree
