/-!
# Positions

A position is a place in a text. Every leaf of a workflow tree is `Located`: it
carries the position it was read from, and only its value counts when two leaves
are compared with `Located.agrees`.

* `Position.compare_eq_eq` and `Position.le_total` make the reading order a
  total order, which is what sorting by position rests on;
* `Located.map_pos` says that a leaf keeps its place when its value is changed.
-/

namespace WorkflowTree

/-! ### Places in a text -/

/-- A place in a text. Lines and columns of texts that were read start at one, and
columns count characters. -/
structure Position where
  line : Nat
  column : Nat
  deriving DecidableEq, Repr, Inhabited

namespace Position

/-- Reading order: the upper line first, and the left column first within a line. -/
def compare (p q : Position) : Ordering :=
  (Ord.compare p.line q.line).then (Ord.compare p.column q.column)

/-- `p` stands before `q` or at the same place. -/
def le (p q : Position) : Bool :=
  p.line < q.line || (p.line == q.line && p.column ≤ q.column)

/-- `p` stands before `q`. -/
def before (p q : Position) : Bool :=
  p.line < q.line || (p.line == q.line && p.column < q.column)

/-- The place that comes later in reading order. -/
def later (p q : Position) : Position :=
  if p.le q then q else p

/-- A position is written as its line and its column, parted by a colon. -/
def text (p : Position) : String :=
  s!"{p.line}:{p.column}"

theorem le_iff {p q : Position} :
    p.le q = true ↔ p.line < q.line ∨ p.line = q.line ∧ p.column ≤ q.column := by
  simp [le]

theorem before_iff {p q : Position} :
    p.before q = true ↔ p.line < q.line ∨ p.line = q.line ∧ p.column < q.column := by
  simp [before]

@[simp] theorem le_refl (p : Position) : p.le p = true := by
  simp [le_iff]

theorem le_trans {p q r : Position} (hpq : p.le q = true) (hqr : q.le r = true) :
    p.le r = true := by
  rw [le_iff] at *
  omega

theorem le_total (p q : Position) : (p.le q || q.le p) = true := by
  rw [Bool.or_eq_true, le_iff, le_iff]
  omega

theorem le_antisymm {p q : Position} (hpq : p.le q = true) (hqp : q.le p = true) : p = q := by
  rw [le_iff] at *
  rcases p with ⟨l, c⟩
  rcases q with ⟨l', c'⟩
  simp only [mk.injEq]
  simp only at hpq hqp
  omega

/-- Either a place is before another one, or the other one is not after it. -/
theorem before_eq_not_le (p q : Position) : p.before q = !q.le p := by
  rw [Bool.eq_iff_iff, Bool.not_eq_true', ← Bool.not_eq_true, before_iff, le_iff]
  omega

theorem compare_eq_eq {p q : Position} : p.compare q = .eq ↔ p = q := by
  rcases p with ⟨l, c⟩
  rcases q with ⟨l', c'⟩
  simp [compare, Ordering.then_eq_eq]

end Position

/-! ### Values with a place -/

/-- A value and the place it was read from. -/
structure Located (α : Type) where
  value : α
  pos : Position
  deriving DecidableEq, Repr, Inhabited

namespace Located

/-- Changes the value and keeps the place. -/
def map {α β : Type} (f : α → β) (x : Located α) : Located β :=
  ⟨f x.value, x.pos⟩

/-- Two located values agree when their values are equal, wherever they stand. -/
def agrees {α : Type} [BEq α] (x y : Located α) : Bool :=
  x.value == y.value

@[simp] theorem map_pos {α β : Type} (f : α → β) (x : Located α) : (x.map f).pos = x.pos := rfl

@[simp] theorem map_value {α β : Type} (f : α → β) (x : Located α) :
    (x.map f).value = f x.value := rfl

end Located

/-- A piece of text that was written at some place. -/
abbrev Text := Located String

/-- A truth value that was written at some place. -/
abbrev Flag := Located Bool

/-- An integer that was written at some place. -/
abbrev Count := Located Int

end WorkflowTree
